import EffectLink.Proofs.ConfinedWrites

namespace EffectLink

namespace Path

/-- A joined path ends with the name that was joined. -/
theorem join_injective {base a b : String} (ha : '/' ∉ a.toList) (hb : '/' ∉ b.toList)
    (h : join base a = join base b) : a = b := by
  obtain ⟨-, before, hnames, -⟩ := names_join base ha
  obtain ⟨-, before', hnames', -⟩ := names_join base hb
  rw [h, hnames'] at hnames
  have hlast := (List.append_inj' hnames rfl).2
  exact (List.singleton_inj.mp hlast).symm

end Path

namespace Disk

variable {d made later : Disk} {directory path : String} {place : Place} {contents : Bytes}

theorem read_ok : d.read path = .ok contents ↔
    ∃ place, d.locate path = .ok place ∧ d.get? place = some (.file contents) := by
  unfold read
  rw [bind_eq_ok]
  refine exists_congr fun place => and_congr_right fun _ => ?_
  cases d.get? place with
  | none => simp
  | some node => cases node <;> simp

theorem getLast?_of_locate {name : String} (hslash : '/' ∉ name.toList) (hname : isDots name = false)
    (h : d.locate (Path.join directory name) = .ok place) : place.getLast? = some name := by
  obtain ⟨-, before, hnames, -⟩ := Path.names_join directory hslash
  obtain ⟨_, -, hfollow⟩ := bind_eq_ok.mp h
  rw [hnames] at hfollow
  obtain ⟨parent, -, hstep⟩ := follow_append.mp hfollow
  obtain ⟨-, -, -, rfl⟩ := (step_ok_iff hname).mp hstep
  exact List.getLast?_concat

/-- The disks differ in directories that are new, and where some paths lead in the end. -/
structure Touches (d later : Disk) (paths : List String) : Prop where
  grows : d.Grows later
  nodes : ∀ place, later.get? place = d.get? place ∨
    (d.get? place = none ∧ later.get? place = some .directory) ∨
    ∃ path ∈ paths, later.locate path = .ok place

theorem AddsDirectories.touches (h : d.AddsDirectories made) : d.Touches made [] :=
  ⟨h.grows, fun place => (h.nodes place).imp_right Or.inl⟩

theorem Touches.trans {paths more : List String} (h : d.Touches made paths)
    (hlater : made.Touches later more) : d.Touches later (paths ++ more) := by
  refine ⟨h.grows.trans hlater.grows, fun place => ?_⟩
  rcases hlater.nodes place with hsame | ⟨hnone, hnew⟩ | ⟨path, hpath, hplace⟩
  · rw [hsame]
    refine (h.nodes place).imp_right (Or.imp_right ?_)
    rintro ⟨path, hpath, hplace⟩
    exact ⟨path, List.mem_append_left _ hpath, hlater.grows.locate hplace⟩
  · rcases h.nodes place with hsame | ⟨-, hdirectory⟩ | ⟨path, hpath, hplace⟩
    · exact Or.inr (Or.inl ⟨hsame ▸ hnone, hnew⟩)
    · rw [hdirectory] at hnone
      contradiction
    · exact Or.inr (Or.inr ⟨path, List.mem_append_left _ hpath, hlater.grows.locate hplace⟩)
  · exact Or.inr (Or.inr ⟨path, List.mem_append_right _ hpath, hplace⟩)

/-- A file can still be read if no other path has come to lead to it. -/
theorem Touches.read {paths : List String} (h : d.Touches later paths)
    (hread : d.read path = .ok contents)
    (hapart : ∀ other ∈ paths, ∀ place, later.locate path = .ok place → later.locate other ≠ .ok place) :
    later.read path = .ok contents := by
  obtain ⟨place, hplace, hfile⟩ := read_ok.mp hread
  have hplace := h.grows.locate hplace
  apply read_ok.mpr
  refine ⟨place, hplace, ?_⟩
  rcases h.nodes place with hsame | ⟨hnone, -⟩ | ⟨other, hother, hlocate⟩
  · rw [hsame, hfile]
  · rw [hfile] at hnone
    contradiction
  · exact absurd hlocate (hapart other hother place hplace)

theorem touches_write (h : d.write path contents = .ok later) :
    d.Touches later [path] ∧ later.read path = .ok contents := by
  obtain ⟨place, hplace, hfree, rfl, hlocate⟩ := write_ok h
  refine ⟨⟨grows_put_file hplace hfree contents, fun q => ?_⟩, ?_⟩
  · by_cases hq : q = place
    · rw [hq]
      exact Or.inr (Or.inr ⟨path, List.mem_singleton_self path, hlocate⟩)
    · exact Or.inl (get?_put_of_ne d hplace _ hq)
  · exact read_ok.mpr ⟨place, hlocate, get?_put_self d hplace _⟩

theorem touches_of_written (h : d.writeBelow directory path contents = (later, .ok ())) :
    d.Touches later [path] ∧ later.read path = .ok contents := by
  rcases d.writeBelow_cases directory path contents with
    ⟨⟨fault, hfault⟩, -⟩ | ⟨-, made, hmade, hwritten⟩
  · rw [h] at hfault
    contradiction
  · rw [h] at hwritten
    obtain ⟨htouches, hread⟩ := touches_write hwritten
    exact ⟨hmade.touches.trans htouches, hread⟩

theorem touches_of_failed {fault : FileError}
    (h : d.writeBelow directory path contents = (later, .error fault)) : d.Touches later [] := by
  rcases d.writeBelow_cases directory path contents with ⟨-, hmade⟩ | ⟨hdone, -⟩
  · rw [h] at hmade
    exact hmade.touches
  · rw [h] at hdone
    contradiction

end Disk

/-- The report on programs of which it is known, in their order, whether the artifact was written. -/
def Report.ofOutcomes (outDir : String) (outcomes : List (String × Bool)) : Report :=
  { artifacts := (outcomes.filter (·.2)).map fun outcome => Linker.artifactPath outDir outcome.1
    failed := (outcomes.filter (!·.2)).map (·.1) }

theorem Report.mem_artifacts_ofOutcomes {outDir path : String} {outcomes : List (String × Bool)} :
    path ∈ (ofOutcomes outDir outcomes).artifacts ↔
      ∃ name, (name, true) ∈ outcomes ∧ path = Linker.artifactPath outDir name := by
  constructor
  · intro h
    obtain ⟨⟨name, written⟩, hmem, rfl⟩ := List.mem_map.mp h
    obtain ⟨hmem, hwritten⟩ := List.mem_filter.mp hmem
    obtain rfl : written = true := hwritten
    exact ⟨name, hmem, rfl⟩
  · rintro ⟨name, hmem, rfl⟩
    exact List.mem_map.mpr ⟨(name, true), List.mem_filter.mpr ⟨hmem, rfl⟩, rfl⟩

namespace Linker

variable {U : Type} {job : Job} {pool : Pool} {linked : LinkedProgram} {programs : List LinkedProgram}

theorem artifactPath_injective {outDir a b : String} (ha : '/' ∉ a.toList) (hb : '/' ∉ b.toList)
    (h : artifactPath outDir a = artifactPath outDir b) : a = b := by
  have hname : a ++ ".fxb" = b ++ ".fxb" :=
    Path.join_injective (slash_not_mem_fileName ha) (slash_not_mem_fileName hb) h
  exact (String.append_left_inj ".fxb").mp hname

/-- The paths of two artifacts never lead to one place. -/
theorem artifactPath_apart {outDir a b : String} (ha : '/' ∉ a.toList) (hb : '/' ∉ b.toList)
    (hne : a ≠ b) {d : Disk} {place : Place} (h : d.locate (artifactPath outDir a) = .ok place) :
    d.locate (artifactPath outDir b) ≠ .ok place := by
  intro h'
  have hdots (name : String) : Disk.isDots (name ++ ".fxb") = false :=
    Disk.isDots_append name (by decide)
  have hlast := Disk.getLast?_of_locate (slash_not_mem_fileName ha) (hdots a) h
  have hlast' := Disk.getLast?_of_locate (slash_not_mem_fileName hb) (hdots b) h'
  rw [hlast] at hlast'
  exact hne ((String.append_left_inj ".fxb").mp (Option.some.inj hlast'))

/-- What is known once the artifacts of some programs are written: whether each of them was, and where
it is. -/
structure Delivered (job : Job) (pool : Pool) (programs : List LinkedProgram) (before after : Disk)
    (outcomes : List (String × Bool)) : Prop where
  names : outcomes.map (·.1) = programs.map (·.program.name)
  paths : (Report.ofOutcomes job.outDir outcomes).artifacts.Nodup
  disk : before.Touches after (Report.ofOutcomes job.outDir outcomes).artifacts
  artifacts : ∀ (i : Nat) (name : String), outcomes[i]? = some (name, true) →
    ∃ linked : LinkedProgram, programs[i]? = some linked ∧ linked.program.name = name ∧
      linked.ok = true ∧
      after.read (artifactPath job.outDir name) = .ok (linked.program.artifact pool)

section Delivery

variable {before made after : Disk} {outcomes : List (String × Bool)}

theorem delivered_nil (d : Disk) : Delivered job pool [] d d [] :=
  ⟨rfl, List.nodup_nil, (Disk.AddsDirectories.refl d).touches, fun _ _ h => by simp at h⟩

/-- A program whose artifact is not written adds nothing to the files. -/
theorem Delivered.failed (hmade : before.Touches made [])
    (h : Delivered job pool programs made after outcomes) :
    Delivered job pool (linked :: programs) before after
      ((linked.program.name, false) :: outcomes) := by
  refine ⟨?_, h.paths, hmade.trans h.disk, fun i name hi => ?_⟩
  · rw [List.map_cons, List.map_cons, h.names]
  · cases i with
    | zero => simp at hi
    | succ i => exact h.artifacts i name hi

/-- A path that is listed is that of a program that was linked. -/
theorem Delivered.exists_linked (h : Delivered job pool programs before after outcomes) {path : String}
    (hpath : path ∈ (Report.ofOutcomes job.outDir outcomes).artifacts) :
    ∃ linked ∈ programs, linked.ok = true ∧ path = artifactPath job.outDir linked.program.name := by
  obtain ⟨name, hmem, rfl⟩ := Report.mem_artifacts_ofOutcomes.mp hpath
  obtain ⟨i, hi⟩ := List.mem_iff_getElem?.mp hmem
  obtain ⟨linked, hat, hname, hok, -⟩ := h.artifacts i name hi
  exact ⟨linked, List.mem_of_getElem? hat, hok, by rw [hname]⟩

/-- An artifact that is written first can be read in the end, since those after it go to other places. -/
theorem Delivered.written (hslash : ∀ l ∈ linked :: programs, '/' ∉ l.program.name.toList)
    (hfresh : ∀ l ∈ programs, linked.ok = true → l.ok = true → linked.program.name ≠ l.program.name)
    (hok : linked.ok = true)
    (hmade : before.Touches made [artifactPath job.outDir linked.program.name])
    (hread : made.read (artifactPath job.outDir linked.program.name) =
      .ok (linked.program.artifact pool))
    (h : Delivered job pool programs made after outcomes) :
    Delivered job pool (linked :: programs) before after
      ((linked.program.name, true) :: outcomes) := by
  obtain ⟨hfirst, hrest⟩ := List.forall_mem_cons.mp hslash
  refine ⟨?_, ?_, hmade.trans h.disk, fun i name hi => ?_⟩
  · rw [List.map_cons, List.map_cons, h.names]
  · refine List.nodup_cons.mpr ⟨fun hmem => ?_, h.paths⟩
    obtain ⟨l, hl, hlinked, hpath⟩ := h.exists_linked hmem
    exact hfresh l hl hok hlinked (artifactPath_injective hfirst (hrest l hl) hpath)
  · cases i with
    | succ i => exact h.artifacts i name hi
    | zero =>
      obtain rfl : linked.program.name = name := by simpa using hi
      refine ⟨linked, rfl, rfl, hok, h.disk.read hread fun path hpath place hplace => ?_⟩
      obtain ⟨l, hl, hlinked, rfl⟩ := h.exists_linked hpath
      exact artifactPath_apart hfirst (hrest l hl) (hfresh l hl hok hlinked) hplace

end Delivery

/-- All programs in turn, one step being `writeOne_cases`. -/
theorem delivered_foldl (hslash : ∀ l ∈ programs, '/' ∉ l.program.name.toList)
    (hdistinct : programs.Pairwise fun a b =>
      a.ok = true → b.ok = true → a.program.name ≠ b.program.name) (s : Session) (report : Report) :
    let final := programs.foldl (writeOne job pool Disk.writeBelow) (s, report)
    ∃ outcomes, Delivered job pool programs s.disk final.1.disk outcomes ∧
      final.2 = ⟨report.artifacts ++ (Report.ofOutcomes job.outDir outcomes).artifacts,
        report.failed ++ (Report.ofOutcomes job.outDir outcomes).failed⟩ := by
  induction programs generalizing s report with
  | nil =>
    refine ⟨[], delivered_nil s.disk, ?_⟩
    simp [Report.ofOutcomes]
  | cons linked rest ih =>
    obtain ⟨-, hrest⟩ := List.forall_mem_cons.mp hslash
    obtain ⟨hfresh, hdistinct⟩ := List.pairwise_cons.mp hdistinct
    -- the rest starts from the disk and the report that the first program leaves
    have hnext (next : Session) (listed : Report) := ih hrest hdistinct next listed
    dsimp only at hnext ⊢
    rw [List.foldl_cons]
    let called := s.call (.write (artifactPath job.outDir linked.program.name))
    rcases writeOne_cases job s pool report linked with
      ⟨-, hstep⟩ | ⟨hok, disk, hwritten, hstep⟩ | ⟨-, disk, fault, hwritten, hstep⟩
    · rw [hstep]
      obtain ⟨outcomes, hdelivered, hreport⟩ := hnext s _
      refine ⟨(linked.program.name, false) :: outcomes, ?_, ?_⟩
      · exact hdelivered.failed (Disk.AddsDirectories.refl s.disk).touches
      · rw [hreport]
        simp [Report.ofOutcomes]
    · rw [hstep]
      obtain ⟨outcomes, hdelivered, hreport⟩ := hnext { called with disk } _
      obtain ⟨htouches, hread⟩ := Disk.touches_of_written hwritten
      refine ⟨(linked.program.name, true) :: outcomes, ?_, ?_⟩
      · exact hdelivered.written hslash hfresh hok htouches hread
      · rw [hreport]
        simp [Report.ofOutcomes]
    · rw [hstep]
      obtain ⟨outcomes, hdelivered, hreport⟩ :=
        hnext (({ called with disk } : Session).report [writeFault job linked.program fault]) _
      refine ⟨(linked.program.name, false) :: outcomes, ?_, ?_⟩
      · exact hdelivered.failed (Disk.touches_of_failed hwritten)
      · rw [hreport]
        simp [Report.ofOutcomes]

theorem delivered_write (job : Job) {result : LinkedEffect}
    (hslash : ∀ l ∈ result.programs, '/' ∉ l.program.name.toList)
    (hdistinct : result.programs.Pairwise fun a b =>
      a.ok = true → b.ok = true → a.program.name ≠ b.program.name) (s : Session) :
    ∃ outcomes, Delivered job result.pool result.programs s.disk (write job result s).1.disk outcomes ∧
      (write job result s).2 = Report.ofOutcomes job.outDir outcomes :=
  delivered_foldl hslash hdistinct s ⟨[], []⟩

variable (job : Job) (backend : Backend U) (effect : Effect) (s : Session)

/-- The programs that have been linked have names of their own. -/
theorem pairwise_names_link :
    (link job backend effect s).2.programs.Pairwise fun a b =>
      a.ok = true → b.ok = true → a.program.name ≠ b.program.name := by
  have hok (units : List (Option U)) (linked : LinkedProgram)
      (h : (linkOne backend units job.header linked).1.ok = true) : linked.ok = true := by
    by_contra hfailed
    rw [linkOne, if_neg hfailed] at h
    exact hfailed h
  rw [programs_link, List.pairwise_map]
  refine (pairwise_names_resolution job effect s).imp fun hnames ha hb => ?_
  rw [name_linkOne, name_linkOne]
  exact hnames (hok _ _ ha) (hok _ _ hb)

theorem dumpFiles_eq_nil {job : Job} (h : job.header.switches.dumpSources = false) (pool : Pool) :
    dumpFiles job pool = [] := by
  unfold dumpFiles
  split
  · apply List.flatMap_eq_nil_iff.mpr
    intro shader _
    rw [shaderFiles, h]
    rfl
  · rfl

variable {backend effect s}

/-- The programs of a run that links them, all of them on a disk without sources. -/
theorem delivered_run {job : Job} (hacquire : backend.acquire = .ok ())
    (hslash : ∀ decl ∈ effect.programs, '/' ∉ decl.name.toList)
    (hdump : job.header.switches.dumpSources = false) :
    let linked := (link job backend effect (s.call .acquire)).2
    ∃ outcomes, Delivered job linked.pool linked.programs s.disk (run job backend effect s).1.disk
        outcomes ∧
      (run job backend effect s).2 = Report.ofOutcomes job.outDir outcomes := by
  intro linked
  have hbefore : (link job backend effect (s.call .acquire)).1.disk = s.disk := by
    rw [link_disk, dumpFiles_eq_nil hdump]
    rfl
  have hplain : ∀ l ∈ linked.programs, '/' ∉ l.program.name.toList := by
    intro l hl
    obtain ⟨decl, hdecl, hname⟩ := exists_decl_of_linked hl
    rw [← hname]
    exact hslash decl hdecl
  have hdistinct := pairwise_names_link job backend effect (s.call .acquire)
  have hwrite := delivered_write job hplain hdistinct (link job backend effect (s.call .acquire)).1
  rw [hbefore] at hwrite
  rw [run_of_acquire_ok job backend effect s hacquire]
  exact hwrite

/-- Where no program is named with a slash and no sources are written, each program either is listed as
failed or has its artifact listed, in the order of the programs. In the end an artifact that is listed can
be read at its path, which is listed once. Apart from new directories, the disk has changed only where
these paths lead. -/
theorem run_report_agrees (job : Job) (backend : Backend U) (effect : Effect) (s : Session)
    (hslash : ∀ decl ∈ effect.programs, '/' ∉ decl.name.toList)
    (hdump : job.header.switches.dumpSources = false) :
    let linked := (link job backend effect (s.call .acquire)).2
    let after := (run job backend effect s).1.disk
    ∃ outcomes : List (String × Bool),
      outcomes.map (·.1) = effect.programs.map (·.name) ∧
      (run job backend effect s).2 = Report.ofOutcomes job.outDir outcomes ∧
      (run job backend effect s).2.artifacts.Nodup ∧
      (∀ (i : Nat) (name : String), outcomes[i]? = some (name, true) →
        ∃ program, linked.programs[i]? = some ⟨program, true⟩ ∧ program.name = name ∧
          after.read (artifactPath job.outDir name) = .ok (program.artifact linked.pool)) ∧
      ∀ place, after.get? place = s.disk.get? place ∨
        (s.disk.get? place = none ∧ after.get? place = some .directory) ∨
        ∃ name, (name, true) ∈ outcomes ∧
          after.locate (artifactPath job.outDir name) = .ok place := by
  intro linked after
  cases hacquire : backend.acquire with
  | error message =>
    -- nothing is linked or written, and all programs have failed
    dsimp only [after]
    rw [run_of_acquire_error job backend effect s hacquire]
    refine ⟨effect.programs.map fun decl => (decl.name, false), ?_, ?_, List.nodup_nil,
      fun i name hi => ?_, fun place => Or.inl rfl⟩
    · rw [List.map_map]
      rfl
    · simp [Report.ofOutcomes, List.filter_map, Function.comp_def]
    · simp at hi
  | ok _ =>
    obtain ⟨outcomes, hdelivered, hreport⟩ := delivered_run hacquire hslash hdump
    have hnames := names_link job backend effect (s.call .acquire)
    refine ⟨outcomes, hdelivered.names.trans hnames, hreport, ?_, fun i name hi => ?_, fun place => ?_⟩
    · rw [hreport]
      exact hdelivered.paths
    · obtain ⟨⟨program, ok⟩, hat, hname, rfl, hread⟩ := hdelivered.artifacts i name hi
      exact ⟨program, hat, hname, hread⟩
    · refine (hdelivered.disk.nodes place).imp_right (Or.imp_right ?_)
      rintro ⟨path, hpath, hplace⟩
      obtain ⟨name, hname, rfl⟩ := Report.mem_artifacts_ofOutcomes.mp hpath
      exact ⟨name, hname, hplace⟩

/-- A directory stands where the artifact of Beacon is to go. -/
def barredSession : Session :=
  { emptySession with
    disk := ⟨[(["out"], .directory), (["out", "Beacon.fxb"], .directory)], []⟩ }

theorem run_report_agrees_lanterns :
    (∀ decl ∈ lanterns.programs, '/' ∉ decl.name.toList) ∧
    stubJob.header.switches.dumpSources = false ∧
    (run stubJob echo lanterns barredSession).2 =
      ⟨["out/Amber.fxb", "out/Crypt.fxb"], ["Beacon", "Dusk"]⟩ ∧
    ∃ outcomes : List (String × Bool),
      Report.ofOutcomes "out" outcomes = ⟨["out/Amber.fxb", "out/Crypt.fxb"], ["Beacon", "Dusk"]⟩ ∧
      ∀ (i : Nat) (name : String), outcomes[i]? = some (name, true) → ∃ contents,
        (run stubJob echo lanterns barredSession).1.disk.read (artifactPath "out" name) =
          .ok contents := by
  have hslash : ∀ decl ∈ lanterns.programs, '/' ∉ decl.name.toList := by decide
  have hreport : (run stubJob echo lanterns barredSession).2 =
      ⟨["out/Amber.fxb", "out/Crypt.fxb"], ["Beacon", "Dusk"]⟩ := by decide +kernel
  obtain ⟨outcomes, -, hlisted, -, hread, -⟩ :=
    run_report_agrees stubJob echo lanterns barredSession hslash rfl
  refine ⟨hslash, rfl, hreport, outcomes, hlisted.symm.trans hreport, fun i name hi => ?_⟩
  obtain ⟨program, -, -, hcontents⟩ := hread i name hi
  exact ⟨_, hcontents⟩

end Linker

end EffectLink
