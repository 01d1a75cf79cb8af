import EffectLink.Proofs.MadeDirectories
import EffectLink.Proofs.ReportedArtifacts
import EffectLink.Proofs.WireReading

namespace EffectLink

section Trimming

variable {α : Type} [DecidableEq α] {a : α}

theorem rdropWhile_append_replicate (items : List α) (n : Nat) :
    (items ++ List.replicate n a).rdropWhile (· == a) = items.rdropWhile (· == a) := by
  induction n with
  | zero => rw [List.replicate_zero, List.append_nil]
  | succ n ih =>
    rw [List.replicate_succ', ← List.append_assoc, List.rdropWhile_concat_pos (· == a) _ a, ih]
    exact beq_self_eq_true a

theorem exists_eq_rdropWhile_append (a : α) (items : List α) :
    ∃ n, items = items.rdropWhile (· == a) ++ List.replicate n a := by
  have hall : ∀ b ∈ items.rtakeWhile (· == a), b = a := fun b hb =>
    beq_iff_eq.mp (List.mem_rtakeWhile_imp (p := (· == a)) hb)
  refine ⟨(items.rtakeWhile (· == a)).length, ?_⟩
  rw [← List.eq_replicate_of_mem hall]
  exact List.rdropWhile_append_rtakeWhile.symm

theorem rdropWhile_eq_iff {items others : List α} :
    items.rdropWhile (· == a) = others.rdropWhile (· == a) ↔
      ∃ m n, items ++ List.replicate m a = others ++ List.replicate n a := by
  constructor
  · intro h
    obtain ⟨m, hitems⟩ := exists_eq_rdropWhile_append a items
    obtain ⟨n, hothers⟩ := exists_eq_rdropWhile_append a others
    -- each list gets what was dropped from the other
    refine ⟨n, m, ?_⟩
    rw [hitems, hothers, h, List.append_assoc, List.append_assoc, ← List.replicate_add,
      ← List.replicate_add, Nat.add_comm]
  · rintro ⟨m, n, h⟩
    calc items.rdropWhile (· == a)
        = (items ++ List.replicate m a).rdropWhile (· == a) :=
          (rdropWhile_append_replicate items m).symm
      _ = (others ++ List.replicate n a).rdropWhile (· == a) := by rw [h]
      _ = others.rdropWhile (· == a) := rdropWhile_append_replicate others n

end Trimming

namespace Path

theorem exists_join_append (base relative ending : String) :
    ∃ text : String, join base (relative ++ ending) = text ++ ending := by
  unfold join
  split
  · exact ⟨relative, rfl⟩
  · split
    · exact ⟨base ++ relative, (String.append_assoc).symm⟩
    · exact ⟨base ++ "/" ++ relative, (String.append_assoc).symm⟩

/-- The last name of a path ends as the path does. -/
theorem names_append_of_no_slash (text : String) {ending : String} (h : '/' ∉ ending.toList) :
    ∃ (before : List String) (last : String), names (text ++ ending) = before ++ [last ++ ending] := by
  have hcut : ∀ c ∈ ending.toList, (c == '/') = false := fun c hc =>
    beq_eq_false_iff_ne.mpr fun heq => h (heq ▸ hc)
  obtain ⟨before, last, hpieces⟩ := Text.pieces_append_of_no_cut hcut text.toList
  refine ⟨before.map String.ofList, String.ofList last, ?_⟩
  rw [names, String.toList_append, hpieces, List.map_append, List.map_singleton, String.ofList_append,
    String.ofList_toList]

end Path

namespace Linker

/-- Two identities that differ in characters that do not belong into the names of files, or in
underscores at the end. -/
def SameStem (a b : String) : Prop :=
  ∃ m n, a.toList.map stemChar ++ List.replicate m '_' =
    b.toList.map stemChar ++ List.replicate n '_'

theorem dumpStem_eq_iff {a b : String} : dumpStem a = dumpStem b ↔ SameStem a b := by
  have hstem (identity : String) : dumpStem identity =
      String.ofList ((identity.toList.map stemChar).rdropWhile (· == '_')) := rfl
  rw [hstem, hstem, String.ofList_inj, rdropWhile_eq_iff]
  rfl

theorem dot_not_mem_dumpStem (identity : String) : '.' ∉ (dumpStem identity).toList := fun h =>
  absurd (kept_of_mem_dumpStem h) (by decide)

theorem extension_injective {a b : Stage} (h : a.extension = b.extension) : a = b := by
  revert h
  cases a <;> cases b <;> decide

theorem dumpName_eq_iff {a b : Shader} :
    dumpName a = dumpName b ↔ a.stage = b.stage ∧ SameStem a.identity b.identity := by
  have hname (shader : Shader) : (dumpName shader).toList = (dumpStem shader.identity).toList ++
      '.' :: (shader.stage.extension ++ ".glsl").toList := by
    have hparts : dumpName shader =
        dumpStem shader.identity ++ "." ++ shader.stage.extension ++ ".glsl" := rfl
    rw [hparts, String.append_assoc, String.append_assoc, String.toList_append, String.toList_append]
    rfl
  rw [← dumpStem_eq_iff]
  constructor
  · intro h
    -- a stem has no dot, so it ends at the first one
    have hsplit := congrArg (fun name : String => Text.splitFirst '.' name.toList) h
    rw [hname, hname, Text.splitFirst_append (dot_not_mem_dumpStem _),
      Text.splitFirst_append (dot_not_mem_dumpStem _), Option.some.injEq, Prod.mk.injEq] at hsplit
    obtain ⟨hstem, hextension⟩ := hsplit
    have hextension := (String.append_left_inj ".glsl").mp (String.toList_injective hextension)
    exact ⟨extension_injective hextension, String.toList_injective hstem⟩
  · rintro ⟨hstage, hstem⟩
    unfold dumpName
    rw [hstage, hstem]

theorem dumpPath_eq_iff (outDir : String) {a b : Shader} :
    dumpPath outDir a = dumpPath outDir b ↔ a.stage = b.stage ∧ SameStem a.identity b.identity := by
  rw [← dumpName_eq_iff, dumpPath_eq, dumpPath_eq]
  constructor
  · exact Path.join_injective (slash_not_mem_dumpName a) (slash_not_mem_dumpName b)
  · intro h
    rw [h]

/-- Where the path of an artifact leads, the last name is that of an artifact. -/
theorem getLast?_of_locate_artifactPath {d : Disk} {outDir name : String} {place : Place}
    (h : d.locate (artifactPath outDir name) = .ok place) :
    ∃ stem : String, place.getLast? = some (stem ++ ".fxb") := by
  obtain ⟨text, htext⟩ := Path.exists_join_append outDir name ".fxb"
  have hslash : '/' ∉ ".fxb".toList := by decide
  obtain ⟨before, stem, hnames⟩ := Path.names_append_of_no_slash text hslash
  obtain ⟨-, hfollow⟩ := Disk.locate_ok.mp h
  rw [artifactPath, htext, hnames] at hfollow
  obtain ⟨parent, -, hstep⟩ := Disk.follow_append.mp hfollow
  obtain ⟨-, -, -, rfl⟩ := (Disk.step_ok_iff (Disk.isDots_append stem (by decide))).mp hstep
  exact ⟨stem, List.getLast?_concat⟩

/-- No artifact is written where the source of a shader goes, whatever the program is named. -/
theorem dumpPath_apart_artifactPath {d : Disk} {outDir name : String} {shader : Shader} {place : Place}
    (h : d.locate (dumpPath outDir shader) = .ok place) :
    d.locate (artifactPath outDir name) ≠ .ok place := by
  intro hartifact
  obtain ⟨stem, hstem⟩ := getLast?_of_locate_artifactPath hartifact
  have hname := Disk.getLast?_of_locate (slash_not_mem_dumpName shader) (isDots_dumpName shader) h
  rw [hname, Option.some.injEq] at hstem
  -- one of the names ends with an `l` and the other with a `b`
  have hlast := congrArg (fun text : String => text.toList.getLast?) hstem
  have hglsl : (dumpName shader).toList.getLast? = some 'l' := by
    unfold dumpName
    rw [String.toList_append, List.getLast?_append_of_ne_nil _ (by decide)]
    decide
  have hfxb : (stem ++ ".fxb").toList.getLast? = some 'b' := by
    rw [String.toList_append, List.getLast?_append_of_ne_nil _ (by decide)]
    decide
  rw [hglsl, hfxb] at hlast
  exact absurd hlast (by decide)

end Linker

namespace Disk

variable {d later : Disk} {directory path : String} {contents : Bytes}

theorem Touches.mono {paths more : List String} (h : d.Touches later paths) (hmore : paths ⊆ more) :
    d.Touches later more := by
  refine ⟨h.grows, fun place => (h.nodes place).imp_right (Or.imp_right ?_)⟩
  rintro ⟨path, hpath, hplace⟩
  exact ⟨path, hmore hpath, hplace⟩

theorem touches_storeAll (directory : String) (d : Disk) (files : List (String × Bytes)) :
    d.Touches (d.storeAll directory files) (files.map (·.1)) := by
  induction files generalizing d with
  | nil => exact (AddsDirectories.refl d).touches
  | cons file rest ih =>
    have hrest := ih (d.store directory file)
    have hfirst : d.Touches (d.store directory file) [file.1] := by
      unfold store
      rcases hwritten : d.writeBelow directory file.1 file.2 with ⟨next, outcome⟩
      cases outcome with
      | ok _ => exact (touches_of_written hwritten).1
      | error fault => exact (touches_of_failed hwritten).mono (List.nil_subset _)
    exact hfirst.trans hrest

theorem written_of_storeFaults {before after : List (String × Bytes)}
    (h : d.storeFaults directory (before ++ (path, contents) :: after) = []) :
    ∃ next, (d.storeAll directory before).writeBelow directory path contents = (next, .ok ()) := by
  rw [storeFaults_append] at h
  have h := (List.append_eq_nil_iff.mp h).2
  rw [storeFaults] at h
  rcases hwritten : (d.storeAll directory before).writeBelow directory path contents with
    ⟨next, outcome⟩
  rw [hwritten] at h
  cases outcome with
  | error fault => exact absurd h (List.cons_ne_nil _ _)
  | ok _ => exact ⟨next, rfl⟩

/-- A file that was written is there in the end if no later path leads to it. -/
theorem read_storeAll {before after : List (String × Bytes)}
    (h : (d.storeAll directory before).writeBelow directory path contents = (later, .ok ()))
    (hapart : ∀ file ∈ after, ∀ (e : Disk) (place : Place),
      e.locate path = .ok place → e.locate file.1 ≠ .ok place) :
    (d.storeAll directory (before ++ (path, contents) :: after)).read path = .ok contents := by
  have hafter : d.storeAll directory (before ++ (path, contents) :: after) =
      later.storeAll directory after := by
    rw [storeAll_append, storeAll, List.foldl_cons, store, h]
    rfl
  rw [hafter]
  refine (touches_storeAll directory later after).read (touches_of_written h).2 ?_
  intro other hother place hplace
  obtain ⟨file, hfile, rfl⟩ := List.mem_map.mp hother
  exact hapart file hfile _ place hplace

end Disk

namespace Linker

variable {U : Type} {job : Job} {backend : Backend U} {effect : Effect} {s : Session}

theorem mem_shaderFiles {shader : Shader} {file : String × Bytes} (h : file ∈ shaderFiles job shader) :
    ∃ source, job.generate job.header shader = .ok source ∧
      file = (dumpPath job.outDir shader, Utf8.encode source) := by
  unfold shaderFiles at h
  split at h
  · split at h
    · next source hsource => exact ⟨source, hsource, List.mem_singleton.mp h⟩
    · exact absurd h List.not_mem_nil
  · exact absurd h List.not_mem_nil

theorem shaderFiles_of_source {shader : Shader} {source : String}
    (hdump : job.header.switches.dumpSources = true)
    (h : job.generate job.header shader = .ok source) :
    shaderFiles job shader = [(dumpPath job.outDir shader, Utf8.encode source)] := by
  unfold shaderFiles
  rw [if_pos hdump, h]

/-- The paths of two sources lead to one place only if they are the same path. -/
theorem dumpPath_apart {d : Disk} {outDir : String} {a b : Shader} {place : Place}
    (hne : dumpPath outDir a ≠ dumpPath outDir b) (ha : d.locate (dumpPath outDir a) = .ok place) :
    d.locate (dumpPath outDir b) ≠ .ok place := by
  intro hb
  have hlast := Disk.getLast?_of_locate (slash_not_mem_dumpName a) (isDots_dumpName a) ha
  have hlast' := Disk.getLast?_of_locate (slash_not_mem_dumpName b) (isDots_dumpName b) hb
  rw [hlast, Option.some.injEq] at hlast'
  rw [dumpPath_eq, dumpPath_eq, hlast'] at hne
  exact hne rfl

/-- There is a source for the shader. -/
def HasSource (job : Job) (shader : Shader) : Prop :=
  ∃ source, job.generate job.header shader = .ok source

/-- Of some shaders, `b` is the last one with a source that is written where the source of `a` goes. -/
structure LastAt (job : Job) (shaders : List Shader) (a b : Shader) : Prop where
  source : HasSource job b
  path : dumpPath job.outDir b = dumpPath job.outDir a
  last : ∃ earlier later, shaders = earlier ++ b :: later ∧
    ∀ c ∈ later, HasSource job c → dumpPath job.outDir b ≠ dumpPath job.outDir c

theorem exists_lastAt {shaders : List Shader} {a : Shader} (ha : a ∈ shaders)
    (hsource : HasSource job a) : ∃ b, LastAt job shaders a b := by
  classical
  rcases rdropWhile_cases (fun c : Shader =>
      !decide (HasSource job c ∧ dumpPath job.outDir c = dumpPath job.outDir a)) shaders with
    ⟨-, hnone⟩ | ⟨earlier, b, later, -, hshaders, hb, hlater⟩
  · have hat := hnone a ha
    rw [decide_eq_true ⟨hsource, rfl⟩] at hat
    exact absurd hat Bool.false_ne_true
  · obtain ⟨hb, hpath⟩ : HasSource job b ∧ dumpPath job.outDir b = dumpPath job.outDir a := by
      simpa using hb
    refine ⟨b, hb, hpath, earlier, later, hshaders, fun c hc hsource' heq => ?_⟩
    have hother := hlater c hc
    rw [decide_eq_true ⟨hsource', heq.symm.trans hpath⟩] at hother
    exact absurd hother Bool.false_ne_true

theorem LastAt.mem {shaders : List Shader} {a b : Shader} (h : LastAt job shaders a b) :
    b ∈ shaders := by
  obtain ⟨earlier, later, rfl, -⟩ := h.last
  exact List.mem_append_right _ List.mem_cons_self

/-- After a run a path holds the last source that was written to it. -/
theorem LastAt.read_run (hacquire : backend.acquire = .ok ())
    (hneeds : (Strategy.ofHeader job.header).needsUnits = true)
    (hdump : job.header.switches.dumpSources = true)
    (hwritten : s.disk.storeFaults job.outDir
      (dumpFiles job (link job backend effect (s.call .acquire)).2.pool) = []) {a b : Shader}
    (h : LastAt job (link job backend effect (s.call .acquire)).2.pool.shaders a b) {source : String}
    (hsource : job.generate job.header b = .ok source) :
    (run job backend effect s).1.disk.read (dumpPath job.outDir a) = .ok (Utf8.encode source) := by
  obtain ⟨earlier, later, hpool, hlast⟩ := h.last
  have hfiles : dumpFiles job (link job backend effect (s.call .acquire)).2.pool =
      earlier.flatMap (shaderFiles job) ++
        (dumpPath job.outDir b, Utf8.encode source) :: later.flatMap (shaderFiles job) := by
    unfold dumpFiles
    rw [if_pos hneeds, hpool, List.flatMap_append, List.flatMap_cons,
      shaderFiles_of_source hdump hsource, List.singleton_append]
  rw [hfiles] at hwritten
  obtain ⟨next, hnext⟩ := Disk.written_of_storeFaults hwritten
  rw [← h.path, run_disk, files, hacquire]
  dsimp only
  rw [hfiles, List.append_assoc, List.cons_append]
  -- of what is written later, neither sources nor artifacts go to the same place
  refine Disk.read_storeAll hnext fun file hfile e place hplace => ?_
  rcases List.mem_append.mp hfile with hfile | hfile
  · obtain ⟨c, hc, hfile⟩ := List.mem_flatMap.mp hfile
    obtain ⟨source', hsource', rfl⟩ := mem_shaderFiles hfile
    dsimp only
    exact dumpPath_apart (hlast c hc ⟨source', hsource'⟩) hplace
  · obtain ⟨linked, -, hfile⟩ := List.mem_flatMap.mp hfile
    unfold programFiles at hfile
    split at hfile
    · rw [List.mem_singleton.mp hfile]
      dsimp only
      exact dumpPath_apart_artifactPath hplace
    · exact absurd hfile List.not_mem_nil

theorem encode_injective {a b : String} (h : Utf8.encode a = Utf8.encode b) : a = b := by
  have hdecoded := congrArg Utf8.decode? h
  rw [Wire.decode_encode_text, Wire.decode_encode_text] at hdecoded
  exact Option.some.inj hdecoded

/-- The sources of two shaders are written to one path exactly if the shaders have the same stage and
their identities agree up to characters that do not belong into the names of files and underscores at
the end. If all sources can be written, then in the end the path of a shader holds the source of the last
shader that is written to it. So every source is on the disk exactly if shaders that share a path have
the same source. -/
theorem run_dumped_sources (job : Job) (backend : Backend U) (effect : Effect) (s : Session)
    (hacquire : backend.acquire = .ok ())
    (hneeds : (Strategy.ofHeader job.header).needsUnits = true)
    (hdump : job.header.switches.dumpSources = true)
    (hwritten : s.disk.storeFaults job.outDir
      (dumpFiles job (link job backend effect (s.call .acquire)).2.pool) = []) :
    let shaders := (link job backend effect (s.call .acquire)).2.pool.shaders
    let after := (run job backend effect s).1.disk
    (∀ a b : Shader, dumpPath job.outDir a = dumpPath job.outDir b ↔
      a.stage = b.stage ∧ SameStem a.identity b.identity) ∧
    (∀ a ∈ shaders, HasSource job a → ∃ b source, LastAt job shaders a b ∧
      job.generate job.header b = .ok source ∧
      after.read (dumpPath job.outDir a) = .ok (Utf8.encode source)) ∧
    ((∀ a ∈ shaders, ∀ source, job.generate job.header a = .ok source →
        after.read (dumpPath job.outDir a) = .ok (Utf8.encode source)) ↔
      ∀ a ∈ shaders, ∀ b ∈ shaders, a.stage = b.stage → SameStem a.identity b.identity →
        ∀ source source', job.generate job.header a = .ok source →
          job.generate job.header b = .ok source' → source = source') := by
  intro shaders after
  refine ⟨fun a b => dumpPath_eq_iff job.outDir, fun a ha hsource => ?_, fun hall => ?_,
    fun hagree => ?_⟩
  · obtain ⟨b, hlast⟩ := exists_lastAt ha hsource
    obtain ⟨source, hb⟩ := hlast.source
    exact ⟨b, source, hlast, hb, hlast.read_run hacquire hneeds hdump hwritten hb⟩
  · intro a ha b hb hstage hstem source source' hsource hsource'
    have hpath := (dumpPath_eq_iff job.outDir).mpr ⟨hstage, hstem⟩
    have hread := hall a ha source hsource
    rw [hpath, hall b hb source' hsource'] at hread
    exact (encode_injective (Except.ok.inj hread)).symm
  · intro a ha source hsource
    obtain ⟨b, hlast⟩ := exists_lastAt ha ⟨source, hsource⟩
    obtain ⟨source', hb⟩ := hlast.source
    obtain ⟨hstage, hstem⟩ := (dumpPath_eq_iff job.outDir).mp hlast.path
    rw [← hagree b hlast.mem a ha hstage hstem source' source hb hsource]
    exact hlast.read_run hacquire hneeds hdump hwritten hb

/-- The shader of a lantern. -/
def lanternShader (tint : String) : Shader :=
  { stage := .vertex, identity := "flame(tint = " ++ tint ++ ")", function := flame
    compileFlags := "", bindings := .ofList [("tint", tint)] }

/-- The two shaders of the lanterns have different stems, so both sources are on the disk. -/
theorem run_dumped_sources_lanterns :
    let pool := (link openJob echo lanterns (emptySession.call .acquire)).2.pool
    let after := (run openJob echo lanterns emptySession).1.disk
    echo.acquire = .ok () ∧ (Strategy.ofHeader openJob.header).needsUnits = true ∧
    openJob.header.switches.dumpSources = true ∧
    emptySession.disk.storeFaults openJob.outDir (dumpFiles openJob pool) = [] ∧
    pool.shaders = [lanternShader "warm", lanternShader "pale"] ∧
    after.read (dumpPath "out" (lanternShader "warm")) =
      .ok (Utf8.encode "#define tint warm\nvoid main() {}") ∧
    after.read (dumpPath "out" (lanternShader "pale")) =
      .ok (Utf8.encode "#define tint pale\nvoid main() {}") := by
  intro pool after
  have hwritten : emptySession.disk.storeFaults openJob.outDir (dumpFiles openJob pool) = [] := by
    decide +kernel
  have hpool : pool.shaders = [lanternShader "warm", lanternShader "pale"] := by decide +kernel
  have hwarm : openJob.generate openJob.header (lanternShader "warm") =
      .ok "#define tint warm\nvoid main() {}" := by decide +kernel
  have hpale : openJob.generate openJob.header (lanternShader "pale") =
      .ok "#define tint pale\nvoid main() {}" := by decide +kernel
  have hstems : dumpStem (lanternShader "warm").identity ≠
      dumpStem (lanternShader "pale").identity := by decide +kernel
  obtain ⟨-, -, hall⟩ := run_dumped_sources openJob echo lanterns emptySession rfl rfl rfl hwritten
  refine ⟨rfl, rfl, rfl, hwritten, hpool, ?_⟩
  have hread := hall.mpr ?_
  · refine ⟨hread _ ?_ _ hwarm, hread _ ?_ _ hpale⟩
    · rw [hpool]
      exact List.mem_cons_self
    · rw [hpool]
      exact List.mem_cons_of_mem _ List.mem_cons_self
  · intro a ha b hb _ hstem source source' hsource hsource'
    rw [hpool] at ha hb
    have hstem := dumpStem_eq_iff.mpr hstem
    rcases List.mem_pair.mp ha with rfl | rfl <;> rcases List.mem_pair.mp hb with rfl | rfl
    · exact Except.ok.inj (hsource.symm.trans hsource')
    · exact absurd hstem hstems
    · exact absurd hstem.symm hstems
    · exact Except.ok.inj (hsource.symm.trans hsource')

/-- A vertex function that makes one call. -/
def shiner (name call : String) : Function :=
  { flame with name, code := "void main() \x7b " ++ call ++ "(); \x7d" }

def shinerProgram (name function : String) : ProgramDecl :=
  { lantern name "" with
    rows := [⟨"RenderState", "glow", ∅, ⟨"lanterns.json", 7⟩⟩,
      ⟨"VertexShader", function, ∅, ⟨"lanterns.json", 8⟩⟩] }

/-- The names of the functions differ in an underscore at the end. -/
def shiners : Effect :=
  { lanterns with
    globals := [], subroutines := []
    functions := [shiner "shine" "dim", shiner "shine_" "flare"]
    programs := [shinerProgram "Dim" "shine", shinerProgram "Flare" "shine_"] }

/-- Both programs are linked and written without an error, and one of the two sources is lost. -/
theorem run_overwrites_source :
    let shaders := (link openJob echo shiners (emptySession.call .acquire)).2.pool.shaders
    let after := run openJob echo shiners emptySession
    ∃ dim flare, shaders = [dim, flare] ∧ dim.identity = "shine" ∧ flare.identity = "shine_" ∧
      openJob.generate openJob.header dim = .ok "void main() \x7b dim(); \x7d" ∧
      dumpPath "out" dim = dumpPath "out" flare ∧
      after.1.disk.read (dumpPath "out" dim) =
        .ok (Utf8.encode "void main() \x7b flare(); \x7d") ∧
      after.1.queue.errors = 0 ∧ after.2.failed = [] := by
  refine ⟨⟨.vertex, "shine", shiner "shine" "dim", "", ∅⟩,
    ⟨.vertex, "shine_", shiner "shine_" "flare", "", ∅⟩, ?_⟩
  decide +kernel

end Linker

end EffectLink
