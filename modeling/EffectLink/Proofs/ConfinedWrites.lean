import EffectLink.Proofs.SuccessfulRuns

namespace EffectLink

namespace Path

variable {name : String}

theorem names_of_no_slash (h : '/' ∉ name.toList) : names name = [name] := by
  have hcut : ∀ c ∈ name.toList, (c == '/') = false := fun c hc =>
    beq_eq_false_iff_ne.mpr fun heq => h (heq ▸ hc)
  rw [names, Text.pieces_of_no_cut hcut, List.map_singleton, String.ofList_toList]

theorem names_eq_append {path rest : String} {text : List Char}
    (h : path.toList = text ++ '/' :: rest.toList) :
    names path = names (String.ofList text) ++ names rest := by
  unfold names
  rw [h, String.toList_ofList, Text.pieces_append rfl, List.map_append]

/-- A path that a name without slashes is joined to consists of the names before it and this name. The
names before it are those of the base, up to an empty one at the end. -/
theorem names_join (base : String) (h : '/' ∉ name.toList) :
    isAbsolute (join base name) = isAbsolute base ∧
      ∃ before, names (join base name) = before ++ [name] ∧
        (names base = before ∨ names base = before ++ [""]) := by
  have hrelative : isAbsolute name = false := by
    refine Bool.eq_false_iff.mpr fun habsolute => h ?_
    exact List.mem_of_mem_head? (beq_iff_eq.mp habsolute)
  have habsolute (rest : String) (hbase : base.toList ≠ []) :
      isAbsolute (base ++ rest) = isAbsolute base := by
    unfold isAbsolute
    rw [String.toList_append, List.head?_append_of_ne_nil _ hbase]
  unfold join
  rw [if_neg (by rw [hrelative]; exact Bool.false_ne_true)]
  split
  · next hbase =>
    rcases Bool.or_eq_true_iff.mp hbase with hempty | hslash
    -- the empty base has one empty name, which is the one that is dropped
    · have hbase : base = "" := String.toList_eq_nil_iff.mp (List.isEmpty_iff.mp hempty)
      rw [hbase, String.empty_append]
      exact ⟨hrelative, [], names_of_no_slash h, Or.inr rfl⟩
    -- a base that ends with a slash has an empty name after it
    · obtain ⟨text, htext⟩ := List.getLast?_eq_some_iff.mp (beq_iff_eq.mp hslash)
      have hnames (rest : String) :
          names (base ++ rest) = names (String.ofList text) ++ names rest := by
        apply names_eq_append
        rw [String.toList_append, htext, List.append_assoc]
        rfl
      refine ⟨habsolute name ?_, names (String.ofList text), ?_, Or.inr ?_⟩
      · rw [htext]
        exact List.append_ne_nil_of_right_ne_nil _ (List.cons_ne_nil _ _)
      · rw [hnames, names_of_no_slash h]
      · have hbase := hnames ""
        rw [String.append_empty] at hbase
        exact hbase
  · next hbase =>
    have hne : base.toList ≠ [] := fun hnil => hbase (by rw [hnil]; rfl)
    refine ⟨?_, names base, ?_, Or.inl rfl⟩
    · rw [String.append_assoc]
      exact habsolute _ hne
    · have hjoined : (base ++ "/" ++ name).toList = base.toList ++ '/' :: name.toList := by
        rw [String.toList_append, String.toList_append, List.append_assoc]
        rfl
      rw [names_eq_append hjoined, String.ofList_toList, names_of_no_slash h]

end Path

namespace Disk

variable {d : Disk} {directory name : String} {place : Place}

/-- A place directly below the directory that a path leads to, the empty path being the working
directory. -/
def Child (d : Disk) (directory : String) (place : Place) : Prop :=
  ∃ parent name, d.follow (d.origin directory) (Path.names directory) = .ok parent ∧
    place = parent ++ [name]

theorem child_of_locate (hslash : '/' ∉ name.toList) (hname : isDots name = false)
    (h : d.locate (Path.join directory name) = .ok place) : d.Child directory place := by
  obtain ⟨habsolute, before, hnames, hbefore⟩ := Path.names_join directory hslash
  obtain ⟨_, -, hfollow⟩ := bind_eq_ok.mp h
  rw [origin, habsolute, ← origin, hnames] at hfollow
  obtain ⟨parent, hparent, hstep⟩ := follow_append.mp hfollow
  obtain ⟨hdirectory, -, -, hplace⟩ := (step_ok_iff hname).mp hstep
  refine ⟨parent, name, ?_, hplace⟩
  rcases hbefore with hbefore | hbefore
  · rw [hbefore]
    exact hparent
  · -- an empty name stays in the directory
    rw [hbefore]
    refine follow_append.mpr ⟨parent, hparent, ?_⟩
    exact bind_eq_ok.mpr ⟨(), requireDirectory_ok.mpr hdirectory, rfl⟩

theorem isDots_append (text : String) {ending : String} (h : 2 < ending.length) :
    isDots (text ++ ending) = false := by
  refine Bool.eq_false_iff.mpr fun hdots => ?_
  have hlength : (text ++ ending).length ≤ 2 := by
    rcases isDots_iff.mp hdots with heq | heq | heq <;> rw [heq] <;> decide
  rw [String.length_append] at hlength
  omega

end Disk

namespace Program

variable {U : Type}

theorem name_linkAndReflect (p : Program) (backend : Backend U) (units : List (Option U))
    (binaries : Bool) : (p.linkAndReflect backend units binaries).program.name = p.name := by
  rcases p.linkAndReflect_cases backend units binaries with
    ⟨faults, calls, -, hr⟩ | ⟨code, message, log, calls, -, hr⟩ | ⟨found, live, calls, -, -, -, hr⟩
  · rw [hr]
  · rw [hr]
  · rw [hr]
    cases binaries with
    | false => rfl
    | true =>
      dsimp only
      rw [if_pos rfl, (translating_all _ (backend.binary p.name found) calls).frame]

theorem name_linkWith (p : Program) (backend : Backend U) (units : List (Option U))
    (header : Header) : (p.linkWith backend units header).program.name = p.name := by
  rcases p.linkWith_cases backend units header with ⟨-, binaries, hr⟩ | ⟨-, warnings, -, hr⟩
  · rw [hr]
    exact p.name_linkAndReflect backend units binaries
  · rw [hr]

end Program

namespace Linker

variable {U : Type} {job : Job} {backend : Backend U} {effect : Effect} {s : Session}

theorem name_linkOne (backend : Backend U) (units : List (Option U)) (header : Header)
    (linked : LinkedProgram) :
    (linkOne backend units header linked).1.program.name = linked.program.name := by
  unfold linkOne
  split
  · exact linked.program.name_linkWith backend units header
  · rfl

/-- The programs of a link run are those of the effect, in order. -/
theorem names_link (job : Job) (backend : Backend U) (effect : Effect) (s : Session) :
    (link job backend effect s).2.programs.map (·.program.name) = effect.programs.map (·.name) := by
  rw [programs_link, List.map_map, ← names_resolution job effect s]
  exact List.map_congr_left fun linked _ => name_linkOne backend _ job.header linked

theorem exists_decl_of_linked {linked : LinkedProgram}
    (h : linked ∈ (link job backend effect s).2.programs) :
    ∃ decl ∈ effect.programs, decl.name = linked.program.name := by
  apply List.mem_map.mp
  rw [← names_link job backend effect s]
  exact List.mem_map_of_mem h

theorem kept_of_mem_dumpStem {identity : String} {c : Char} (h : c ∈ (dumpStem identity).toList) :
    (c.isAlphanum || c == '_' || c == '-') = true := by
  unfold dumpStem at h
  rw [String.toList_ofList, List.mem_reverse] at h
  have hkept := List.mem_reverse.mp ((List.dropWhile_sublist _).mem h)
  obtain ⟨original, -, hc⟩ := List.mem_map.mp hkept
  unfold stemChar at hc
  split at hc
  · next hplain =>
    rw [← hc]
    exact hplain
  · rw [← hc]
    decide

theorem slash_not_mem_dumpStem (identity : String) : '/' ∉ (dumpStem identity).toList := fun h =>
  absurd (kept_of_mem_dumpStem h) (by decide)

/-- Below the directory of a job: a path that joins a name of its own without slashes to it. -/
def Beside (job : Job) (path : String) : Prop :=
  ∃ name, '/' ∉ name.toList ∧ Disk.isDots name = false ∧ path = Path.join job.outDir name

/-- The name of the file that the source of a shader is written to. -/
def dumpName (shader : Shader) : String :=
  s!"{dumpStem shader.identity}.{shader.stage.extension}.glsl"

theorem dumpPath_eq (outDir : String) (shader : Shader) :
    dumpPath outDir shader = Path.join outDir (dumpName shader) := rfl

theorem slash_not_mem_dumpName (shader : Shader) : '/' ∉ (dumpName shader).toList := by
  have hextension : '/' ∉ shader.stage.extension.toList := by cases shader.stage <;> decide
  unfold dumpName
  simp only [String.toList_append, List.mem_append, not_or]
  exact ⟨⟨⟨slash_not_mem_dumpStem _, by decide⟩, hextension⟩, by decide⟩

theorem isDots_dumpName (shader : Shader) : Disk.isDots (dumpName shader) = false :=
  Disk.isDots_append _ (by decide)

theorem beside_dumpPath (job : Job) (shader : Shader) : Beside job (dumpPath job.outDir shader) :=
  ⟨dumpName shader, slash_not_mem_dumpName shader, isDots_dumpName shader, rfl⟩

theorem slash_not_mem_fileName {name : String} (h : '/' ∉ name.toList) :
    '/' ∉ (name ++ ".fxb").toList := by
  rw [String.toList_append, List.mem_append, not_or]
  exact ⟨h, by decide⟩

theorem beside_artifactPath (job : Job) {name : String} (h : '/' ∉ name.toList) :
    Beside job (artifactPath job.outDir name) :=
  ⟨_, slash_not_mem_fileName h, Disk.isDots_append _ (by decide), rfl⟩

theorem beside_of_mem_dumpFiles {pool : Pool} {file : String × Bytes}
    (h : file ∈ dumpFiles job pool) : Beside job file.1 := by
  unfold dumpFiles at h
  split at h
  · obtain ⟨shader, -, hfile⟩ := List.mem_flatMap.mp h
    unfold shaderFiles at hfile
    split at hfile
    · split at hfile
      · rw [List.mem_singleton.mp hfile]
        dsimp only
        exact beside_dumpPath job shader
      · exact absurd hfile List.not_mem_nil
    · exact absurd hfile List.not_mem_nil
  · exact absurd h List.not_mem_nil

/-- The path of an artifact whose program is named with a slash. -/
def Strays (job : Job) (effect : Effect) (path : String) : Prop :=
  ∃ decl ∈ effect.programs, '/' ∈ decl.name.toList ∧ path = artifactPath job.outDir decl.name

theorem artifactFiles_link {file : String × Bytes}
    (h : file ∈ artifactFiles job (link job backend effect s).2) :
    Beside job file.1 ∨ Strays job effect file.1 := by
  obtain ⟨linked, hmem, hfile⟩ := List.mem_flatMap.mp h
  obtain ⟨decl, hdecl, hname⟩ := exists_decl_of_linked hmem
  unfold programFiles at hfile
  split at hfile
  · rw [List.mem_singleton.mp hfile, ← hname]
    by_cases hslash : '/' ∈ decl.name.toList
    · exact Or.inr ⟨decl, hdecl, hslash, rfl⟩
    · exact Or.inl (beside_artifactPath job hslash)
  · exact absurd hfile List.not_mem_nil

theorem beside_or_strays_files {file : String × Bytes} (h : file ∈ files job backend effect s) :
    Beside job file.1 ∨ Strays job effect file.1 := by
  unfold files at h
  split at h
  · exact absurd h List.not_mem_nil
  · rcases List.mem_append.mp h with h | h
    · exact Or.inl (beside_of_mem_dumpFiles h)
    · exact artifactFiles_link h

/-- What a run writes is a list of files, each of which is named without slashes in the directory of the
job or is the artifact of a program named with a slash. A file that is on the disk after the run and was
not the same before is directly below that directory, or it is where the artifact of a program named
with a slash leads. -/
theorem run_writes_confined (job : Job) (backend : Backend U) (effect : Effect) (s : Session) :
    (run job backend effect s).1.disk = s.disk.storeAll job.outDir (files job backend effect s) ∧
    (∀ file ∈ files job backend effect s, Beside job file.1 ∨ Strays job effect file.1) ∧
    ∀ place contents, (run job backend effect s).1.disk.get? place = some (.file contents) →
      s.disk.get? place ≠ some (.file contents) →
      (run job backend effect s).1.disk.Child job.outDir place ∨
      ∃ path, Strays job effect path ∧ (run job backend effect s).1.disk.locate path = .ok place := by
  have hdisk := run_disk job backend effect s Disk.writeBelow
  refine ⟨hdisk, fun _ => beside_or_strays_files, fun place contents hfile hchanged => ?_⟩
  rw [hdisk] at hfile ⊢
  rcases Disk.file_storeAll hfile with hbefore | ⟨file, hmem, hlocate⟩
  · exact absurd hbefore hchanged
  rcases beside_or_strays_files hmem with ⟨name, hslash, hname, hpath⟩ | hstrays
  · rw [hpath] at hlocate
    exact Or.inl (Disk.child_of_locate hslash hname hlocate)
  · exact Or.inr ⟨file.1, hstrays, hlocate⟩

/-- The source of Amber is new, and is written directly below the directory. -/
theorem run_writes_confined_amber :
    let amber := lanterns.only (lantern "Amber" "warm")
    let place := ["out", "flame_tint___warm.vert.glsl"]
    let source := Node.file (Utf8.encode "#define tint warm\nvoid main() {}")
    (run openJob echo amber emptySession).1.disk.get? place = some source ∧
    emptySession.disk.get? place ≠ some source ∧
    (run openJob echo amber emptySession).1.disk.Child "out" place := by
  intro amber place source
  have hsource : (run openJob echo amber emptySession).1.disk.get? place = some source := by decide
  have hnew : emptySession.disk.get? place ≠ some source := by decide
  obtain ⟨-, -, hchild⟩ := run_writes_confined openJob echo amber emptySession
  refine ⟨hsource, hnew, (hchild place _ hsource hnew).resolve_right ?_⟩
  rintro ⟨path, ⟨decl, hdecl, hslash, -⟩, -⟩
  rw [List.mem_singleton.mp hdecl] at hslash
  exact absurd hslash (by decide)

/-- A job without shaders to compile. -/
def stubJob : Job := { lanternJob with header := ⟨.hlsl, 5, 0, .none⟩ }

/-- An artifact is written outside of the directory that the artifacts are to be written to. -/
theorem run_writes_outside :
    let escape := lanterns.only (lantern "../Escape" "warm")
    let disk := (run stubJob echo escape emptySession).1.disk
    emptySession.disk.get? ["Escape.fxb"] = none ∧
    (∃ contents, disk.get? ["Escape.fxb"] = some (.file contents)) ∧
    ¬disk.Child stubJob.outDir ["Escape.fxb"] := by
  refine ⟨by decide, ⟨_, rfl⟩, ?_⟩
  rintro ⟨parent, name, hparent, hplace⟩
  have hout : Disk.follow (run stubJob echo (lanterns.only (lantern "../Escape" "warm"))
      emptySession).1.disk [] ["out"] = .ok ["out"] := by decide
  have hsame : Except.ok parent = Except.ok ["out"] := hparent.symm.trans hout
  cases hsame
  exact absurd hplace (by simp)

end Linker

end EffectLink
