import EffectLink.Proofs.DumpedSources

/-! A run with sources against one without. The sources add files next to the artifacts and the
directories that artifacts need anyway, so an artifact is written in both runs or in neither. -/

namespace EffectLink

namespace Disk

variable {d e d' e' : Disk} {directory path : String} {paths : List String} {place start : Place}
  {contents : Bytes}

/-- The disk `e` is `d` with files put where some paths lead, none of them in the place of a directory. -/
structure AddsFiles (d e : Disk) (paths : List String) : Prop where
  workingDirectory : e.workingDirectory = d.workingDirectory
  nodes : ∀ place, e.get? place = d.get? place ∨
    d.get? place ≠ some .directory ∧ (∃ contents, e.get? place = some (.file contents)) ∧
      ∃ path ∈ paths, e.locate path = .ok place

theorem AddsFiles.refl (d : Disk) (paths : List String) : d.AddsFiles d paths :=
  ⟨rfl, fun _ => Or.inl rfl⟩

theorem AddsFiles.directory_iff (h : d.AddsFiles e paths) :
    e.get? place = some .directory ↔ d.get? place = some .directory := by
  rcases h.nodes place with hsame | ⟨hfree, ⟨contents, hfile⟩, -⟩
  · rw [hsame]
  · rw [hfile]
    exact iff_of_false (fun hdirectory => by cases hdirectory) hfree

theorem AddsFiles.grows (h : d.AddsFiles e paths) : d.Grows e := by
  refine ⟨h.workingDirectory, fun place => h.directory_iff.mpr, fun place hplace => ?_⟩
  rcases h.nodes place with hsame | ⟨-, ⟨contents, hfile⟩, -⟩
  · rw [hsame]
    exact hplace
  · rw [hfile]
    rfl

/-- A step depends only on the directory it starts from and on whether there is something at its end. -/
theorem step_of_step {name : String} (hstep : e.step start name = .ok place)
    (hstart : d.get? start = some .directory) (hplace : (d.get? place).isSome = true) :
    d.step start name = .ok place := by
  by_cases hname : isDots name = true
  · obtain ⟨_, -, hrest⟩ := bind_eq_ok.mp hstep
    refine bind_eq_ok.mpr ⟨(), requireDirectory_ok.mpr hstart, ?_⟩
    rcases isDots_iff.mp hname with rfl | rfl | rfl <;> exact hrest
  · have hname := Bool.eq_false_iff.mpr hname
    obtain ⟨-, hlength, -, rfl⟩ := (step_ok_iff hname).mp hstep
    exact (step_ok_iff hname).mpr ⟨hstart, hlength, hplace, rfl⟩

/-- Names that lead to what is there without the files do so without them. -/
theorem AddsFiles.follow (h : d.AddsFiles e paths) {names : List String}
    (hfollow : e.follow start names = .ok place) (hplace : (d.get? place).isSome = true) :
    d.follow start names = .ok place := by
  induction names generalizing start with
  | nil => exact hfollow
  | cons name rest ih =>
    obtain ⟨next, hstep, hrest⟩ := follow_cons_iff.mp hfollow
    have hstart := h.directory_iff.mp (directory_of_step hstep)
    refine follow_cons_iff.mpr ⟨next, step_of_step hstep hstart ?_, ih hrest⟩
    cases rest with
    | nil =>
      cases hrest
      exact hplace
    | cons further rest =>
      -- the next name is looked up in a directory, and the files are none
      obtain ⟨_, hnext, -⟩ := follow_cons_iff.mp hrest
      rw [h.directory_iff.mp (directory_of_step hnext)]
      rfl

theorem AddsFiles.origin (h : d.AddsFiles e paths) (path : String) : e.origin path = d.origin path :=
  h.grows.origin path

theorem AddsFiles.locate (h : d.AddsFiles e paths) (hlocate : e.locate path = .ok place)
    (hplace : (d.get? place).isSome = true) : d.locate path = .ok place := by
  obtain ⟨hpath, hfollow⟩ := locate_ok.mp hlocate
  rw [h.origin] at hfollow
  exact locate_ok.mpr ⟨hpath, h.follow hfollow hplace⟩

theorem AddsFiles.ready_iff (h : d.AddsFiles e paths) : e.Ready directory ↔ d.Ready directory := by
  constructor
  · rintro (hempty | hdirectory)
    · exact Or.inl hempty
    · obtain ⟨place, hlocate, hplace⟩ := isDirectory_iff.mp hdirectory
      have hplace := h.directory_iff.mp hplace
      refine Or.inr (isDirectory_iff.mpr ⟨place, h.locate hlocate ?_, hplace⟩)
      rw [hplace]
      rfl
  · exact fun hready => hready.grows h.grows

/-- A file that both disks get. -/
theorem AddsFiles.put (h : d.AddsFiles e paths) (hplace : place ≠ [])
    (hfree : d.get? place ≠ some .directory) (contents : Bytes) :
    (d.put place (.file contents)).AddsFiles (e.put place (.file contents)) paths := by
  have hgrows := grows_put_file hplace (fun hnode => hfree (h.directory_iff.mp hnode)) contents
  refine ⟨h.workingDirectory, fun q => ?_⟩
  by_cases hq : q = place
  · rw [hq, get?_put_self d hplace, get?_put_self e hplace]
    exact Or.inl rfl
  · rw [get?_put_of_ne d hplace _ hq, get?_put_of_ne e hplace _ hq]
    refine (h.nodes q).imp_right (And.imp_right (And.imp_right ?_))
    rintro ⟨path, hpath, hlocate⟩
    exact ⟨path, hpath, hgrows.locate hlocate⟩

/-- A file that only the second disk gets. -/
theorem AddsFiles.added (h : d.AddsFiles e paths) (he : e.write path contents = .ok e')
    (hpath : path ∈ paths) : d.AddsFiles e' paths := by
  obtain ⟨place, hplace, hfree, rfl, hlocate⟩ := write_ok he
  have hgrows := grows_put_file hplace hfree contents
  refine ⟨h.workingDirectory, fun q => ?_⟩
  by_cases hq : q = place
  · rw [hq, get?_put_self e hplace]
    exact Or.inr ⟨fun hnode => hfree (h.directory_iff.mpr hnode), ⟨contents, rfl⟩, path, hpath, hlocate⟩
  · rw [get?_put_of_ne e hplace _ hq]
    refine (h.nodes q).imp_right (And.imp_right (And.imp_right ?_))
    rintro ⟨other, hother, hlocate⟩
    exact ⟨other, hother, hgrows.locate hlocate⟩

/-- What can be written on the first disk can be written on the second. -/
theorem AddsFiles.write (h : d.AddsFiles e paths) (hd : d.write path contents = .ok d') :
    ∃ e', e.write path contents = .ok e' ∧ d'.AddsFiles e' paths := by
  obtain ⟨hpath, parent, hfollow, hdirectory, hlength, hname, hfree, rfl⟩ := write_ok_iff.mp hd
  refine ⟨_, write_ok_iff.mpr ⟨hpath, parent, ?_, h.directory_iff.mpr hdirectory, hlength, hname,
    fun hnode => hfree (h.directory_iff.mp hnode), rfl⟩, ?_⟩
  · rw [h.origin]
    exact h.grows.follow hfollow
  · exact h.put (List.append_ne_nil_of_right_ne_nil _ (List.cons_ne_nil _ _)) hfree contents

/-- And the other way round: the files that were added are on no way to a directory. -/
theorem AddsFiles.write_of_write (h : d.AddsFiles e paths) (he : e.write path contents = .ok e') :
    ∃ d', d.write path contents = .ok d' := by
  obtain ⟨hpath, parent, hfollow, hdirectory, hlength, hname, hfree, -⟩ := write_ok_iff.mp he
  have hdirectory := h.directory_iff.mp hdirectory
  refine ⟨_, write_ok_iff.mpr ⟨hpath, parent, ?_, hdirectory, hlength, hname,
    fun hnode => hfree (h.directory_iff.mpr hnode), rfl⟩⟩
  rw [← h.origin]
  exact h.follow hfollow (by rw [hdirectory]; rfl)

/-- The disk `e` is `d`, or the directory has been made on it, as far as it can be, and it has more files
than `d` would have then. -/
def Alongside (directory : String) (paths : List String) (d e : Disk) : Prop :=
  e = d ∨ (d.opened directory).AddsFiles e paths ∧ e.opened directory = e

theorem Alongside.opened (h : Alongside directory paths d e) :
    (d.opened directory).AddsFiles (e.opened directory) paths := by
  rcases h with rfl | ⟨hfiles, hopened⟩
  · exact .refl _ _
  · rw [hopened]
    exact hfiles

/-- A file that is written only on the second disk. -/
theorem Alongside.store_right (h : Alongside directory paths d e) {file : String × Bytes}
    (hpath : file.1 ∈ paths) : Alongside directory paths d (e.store directory file) := by
  refine Or.inr ⟨?_, opened_writeBelow e directory file.1 file.2⟩
  unfold store
  rcases e.writeBelow_opened directory file.1 file.2 with
    ⟨-, fault, hresult⟩ | ⟨-, ⟨later, hwritten, hresult⟩ | ⟨fault, -, hresult⟩⟩
  · rw [hresult]
    exact h.opened
  · rw [hresult]
    exact h.opened.added hwritten hpath
  · rw [hresult]
    exact h.opened

theorem alongside_storeAll (directory : String) (d : Disk) {files : List (String × Bytes)}
    (hpaths : ∀ file ∈ files, file.1 ∈ paths) :
    Alongside directory paths d (d.storeAll directory files) := by
  have hinduction : ∀ e, Alongside directory paths d e →
      Alongside directory paths d (e.storeAll directory files) := by
    induction files with
    | nil => exact fun e h => h
    | cons file rest ih =>
      obtain ⟨hfile, hrest⟩ := List.forall_mem_cons.mp hpaths
      exact fun e h => ih hrest _ (h.store_right hfile)
  exact hinduction d (Or.inl rfl)

/-- A file that is to be written on both disks is written on both or on neither. -/
theorem Alongside.writeBelow (h : Alongside directory paths d e) (path : String) (contents : Bytes) :
    ∃ d' e', Alongside directory paths d' e' ∧
      ((d.writeBelow directory path contents = (d', .ok ()) ∧
        e.writeBelow directory path contents = (e', .ok ())) ∨
      (∃ fault fault', d.writeBelow directory path contents = (d', .error fault) ∧
        e.writeBelow directory path contents = (e', .error fault'))) := by
  have hfiles := h.opened
  -- afterwards the directory is made on both disks, as far as it can be
  have hd := d.opened_writeBelow directory path contents
  have he := e.opened_writeBelow directory path contents
  rcases d.writeBelow_opened directory path contents with
    ⟨hready, fault, hresult⟩ | ⟨hready, ⟨d', hwritten, hresult⟩ | ⟨fault, hfailed, hresult⟩⟩
  · rcases e.writeBelow_opened directory path contents with
      ⟨-, fault', hresult'⟩ | ⟨hready', -⟩
    · rw [hresult'] at he
      refine ⟨_, _, Or.inr ⟨?_, he⟩, Or.inr ⟨fault, fault', hresult, hresult'⟩⟩
      rw [opened_opened]
      exact hfiles
    · exact absurd (hfiles.ready_iff.mp hready') hready
  · obtain ⟨e', hwritten', hfiles'⟩ := hfiles.write hwritten
    rcases e.writeBelow_opened directory path contents with
      ⟨hready', -⟩ | ⟨-, ⟨later, hlater, hresult'⟩ | ⟨fault', hfailed, -⟩⟩
    · exact absurd (hfiles.ready_iff.mpr hready) hready'
    · rw [hwritten'] at hlater
      cases hlater
      rw [hresult] at hd
      rw [hresult'] at he
      refine ⟨d', e', Or.inr ⟨?_, he⟩, Or.inl ⟨hresult, hresult'⟩⟩
      rw [hd]
      exact hfiles'
    · rw [hwritten'] at hfailed
      cases hfailed
  · rcases e.writeBelow_opened directory path contents with
      ⟨hready', -⟩ | ⟨-, ⟨later, hlater, -⟩ | ⟨fault', -, hresult'⟩⟩
    · exact absurd (hfiles.ready_iff.mpr hready) hready'
    · obtain ⟨d', hwritten⟩ := hfiles.write_of_write hlater
      rw [hfailed] at hwritten
      cases hwritten
    · rw [hresult'] at he
      refine ⟨_, _, Or.inr ⟨?_, he⟩, Or.inr ⟨fault, fault', hresult, hresult'⟩⟩
      rw [opened_opened]
      exact hfiles

theorem Alongside.grows (h : Alongside directory paths d e) : d.Grows e := by
  rcases h with rfl | ⟨hfiles, -⟩
  · exact .refl _
  · exact (d.grows_opened directory).trans hfiles.grows

theorem Alongside.file_iff (h : Alongside directory paths d e)
    (hapart : ∀ path ∈ paths, e.locate path ≠ .ok place) :
    e.get? place = some (.file contents) ↔ d.get? place = some (.file contents) := by
  rcases h with rfl | ⟨hfiles, -⟩
  · rfl
  · rcases hfiles.nodes place with hsame | ⟨-, -, path, hpath, hlocate⟩
    · rw [hsame]
      refine ⟨(d.addsDirectories_opened directory).file, fun hfile => ?_⟩
      rcases (d.addsDirectories_opened directory).nodes place with hopened | ⟨hnone, -⟩
      · exact hopened.trans hfile
      · rw [hfile] at hnone
        contradiction
    · exact absurd hlocate (hapart path hpath)

theorem Alongside.read (h : Alongside directory paths d e)
    (hapart : ∀ other ∈ paths, ∀ place, e.locate path = .ok place → e.locate other ≠ .ok place)
    (hread : d.read path = .ok contents) : e.read path = .ok contents := by
  obtain ⟨place, hlocate, hfile⟩ := read_ok.mp hread
  have hlocate := h.grows.locate hlocate
  refine read_ok.mpr ⟨place, hlocate, (h.file_iff fun other hother => ?_).mpr hfile⟩
  exact hapart other hother place hlocate

/-- A file that can be read on the second disk can be read on the first, if the directory is there. -/
theorem Alongside.read_of_ready (h : Alongside directory paths d e) (hready : d.Ready directory)
    (hapart : ∀ other ∈ paths, ∀ place, e.locate path = .ok place → e.locate other ≠ .ok place)
    (hread : e.read path = .ok contents) : d.read path = .ok contents := by
  obtain ⟨place, hlocate, hfile⟩ := read_ok.mp hread
  have hfile := (h.file_iff fun other hother => hapart other hother place hlocate).mp hfile
  rcases h with rfl | ⟨hfiles, -⟩
  · exact hread
  · rw [opened_of_ready hready] at hfiles
    refine read_ok.mpr ⟨place, hfiles.locate hlocate ?_, hfile⟩
    rw [hfile]
    rfl

theorem Rooted.eq_or_directory (h : d.Rooted) (hbelow : start <+: place)
    (hnode : (d.get? place).isSome = true) :
    start = place ∨ d.get? start = some .directory := by
  obtain ⟨more, rfl⟩ := hbelow
  induction more using List.reverseRecOn with
  | nil => exact Or.inl (List.append_nil start).symm
  | append_singleton more name ih =>
    rw [← List.append_assoc] at hnode
    have habove := h _ name hnode
    rcases ih (by rw [habove]; rfl) with hsame | hdirectory
    · rw [← hsame] at habove
      exact Or.inr habove
    · exact Or.inr hdirectory

/-- Without a double dot a path leads downwards. -/
theorem prefix_of_follow {names : List String} (hdots : ".." ∉ names)
    (h : d.follow start names = .ok place) : start <+: place := by
  induction names generalizing start with
  | nil =>
    cases h
    exact List.prefix_rfl
  | cons name rest ih =>
    rw [List.mem_cons, not_or] at hdots
    obtain ⟨next, hstep, hrest⟩ := follow_cons_iff.mp h
    refine List.IsPrefix.trans ?_ (ih hdots.2 hrest)
    by_cases hname : isDots name = true
    · obtain ⟨_, -, hnext⟩ := bind_eq_ok.mp hstep
      rcases isDots_iff.mp hname with rfl | rfl | rfl
      · cases hnext
        exact List.prefix_rfl
      · cases hnext
        exact List.prefix_rfl
      · exact absurd rfl hdots.1
    · obtain ⟨-, -, -, rfl⟩ := (step_ok_iff (Bool.eq_false_iff.mpr hname)).mp hstep
      exact List.prefix_append _ _

/-- A path without double dots that leads to a file leads to it on every disk that has the file. -/
theorem Rooted.follow (hrooted : d.Rooted) {names : List String} (hdots : ".." ∉ names)
    (hfollow : e.follow start names = .ok place) (he : e.get? place = some (.file contents))
    (hd : d.get? place = some (.file contents)) : d.follow start names = .ok place := by
  induction names generalizing start with
  | nil => exact hfollow
  | cons name rest ih =>
    have hbelow := prefix_of_follow hdots hfollow
    rw [List.mem_cons, not_or] at hdots
    obtain ⟨next, hstep, hrest⟩ := follow_cons_iff.mp hfollow
    have hnode : (d.get? place).isSome = true := by
      rw [hd]
      rfl
    refine follow_cons_iff.mpr ⟨next, step_of_step hstep ?_ ?_, ih hdots.2 hrest⟩
    · refine (hrooted.eq_or_directory hbelow hnode).resolve_left ?_
      rintro rfl
      have hdirectory := directory_of_step hstep
      rw [he] at hdirectory
      cases hdirectory
    · rcases hrooted.eq_or_directory (prefix_of_follow hdots.2 hrest) hnode with rfl | hdirectory
      · exact hnode
      · rw [hdirectory]
        rfl

theorem Alongside.read_of_rooted (h : Alongside directory paths d e) (hrooted : d.Rooted)
    (hdots : ".." ∉ Path.names path)
    (hapart : ∀ other ∈ paths, ∀ place, e.locate path = .ok place → e.locate other ≠ .ok place)
    (hread : e.read path = .ok contents) : d.read path = .ok contents := by
  obtain ⟨place, hlocate, he⟩ := read_ok.mp hread
  have hd := (h.file_iff fun other hother => hapart other hother place hlocate).mp he
  obtain ⟨hpath, hfollow⟩ := locate_ok.mp hlocate
  rw [h.grows.origin] at hfollow
  exact read_ok.mpr ⟨place, locate_ok.mpr ⟨hpath, hrooted.follow hdots hfollow he hd⟩, hd⟩

end Disk

/-- The job with its sources written, or not. -/
def Job.withDump (job : Job) (dump : Bool) : Job :=
  { job with header := { job.header with switches := { job.header.switches with dumpSources := dump } } }

namespace Linker

variable {U : Type} (job : Job) (backend : Backend U) (effect : Effect) (s : Session)

/-- Shaders are given out without a look at the switch. -/
theorem resolveAll_withDump (symbols : SymbolTable) (dump : Bool) (pool : Pool)
    (programs : List LinkedProgram) :
    resolveAll symbols (job.withDump dump).header pool programs =
      resolveAll symbols job.header pool programs := by
  induction programs generalizing pool with
  | nil => rfl
  | cons linked rest ih =>
    have hresolve : linked.program.resolve symbols (job.withDump dump).header pool =
      linked.program.resolve symbols job.header pool := rfl
    rw [resolveAll, resolveAll, hresolve]
    simp only [ih]

theorem resolution_withDump (dump : Bool) :
    resolution (job.withDump dump) effect s = resolution job effect s := by
  unfold resolution
  rw [resolveAll_withDump]
  rfl

/-- Linking gives the same programs with and without sources, if they get the same source and the backend
compiles it alike. -/
theorem link_withDump
    (hgenerate : ∀ shader, job.generate (job.withDump true).header shader =
      job.generate (job.withDump false).header shader)
    (hcompile : backend.compile (job.withDump true).header =
      backend.compile (job.withDump false).header) :
    (link (job.withDump true) backend effect s).2 = (link (job.withDump false) backend effect s).2 := by
  have hparts (dump : Bool) : (link (job.withDump dump) backend effect s).2 =
      ⟨(link (job.withDump dump) backend effect s).2.programs,
        (link (job.withDump dump) backend effect s).2.pool⟩ := rfl
  have hunit : compiledUnit (job.withDump true) backend =
      compiledUnit (job.withDump false) backend := by
    funext shader
    have hsource : (job.withDump true).generate (job.withDump true).header shader =
        (job.withDump false).generate (job.withDump false).header shader := hgenerate shader
    unfold compiledUnit
    rw [hsource, hcompile]
  rw [hparts true, hparts false, programs_link, programs_link, pool_link, pool_link, resolution_withDump,
    resolution_withDump, hunit]
  rfl

/-- Writing the artifacts on both disks gives one report. -/
theorem foldl_writeOne_alongside (pool : Pool) (programs : List LinkedProgram) {paths : List String}
    {a b : Session} (h : Disk.Alongside job.outDir paths a.disk b.disk) (report : Report) :
    let quiet := programs.foldl (writeOne job pool Disk.writeBelow) (a, report)
    let dumping := programs.foldl (writeOne job pool Disk.writeBelow) (b, report)
    dumping.2 = quiet.2 ∧ Disk.Alongside job.outDir paths quiet.1.disk dumping.1.disk := by
  induction programs generalizing a b report with
  | nil => exact ⟨rfl, h⟩
  | cons linked rest ih =>
    dsimp only at ih ⊢
    rw [List.foldl_cons, List.foldl_cons]
    by_cases hok : linked.ok = true
    · obtain ⟨d', e', hdisks, hwritten⟩ :=
        h.writeBelow (artifactPath job.outDir linked.program.name) (linked.program.artifact pool)
      rw [writeOne, writeOne, if_pos hok, if_pos hok]
      dsimp only
      rcases hwritten with ⟨hd, he⟩ | ⟨fault, fault', hd, he⟩
      · rw [hd, he]
        exact ih hdisks _
      · rw [hd, he]
        exact ih hdisks _
    · rw [writeOne, writeOne, if_neg hok, if_neg hok]
      exact ih h _

/-- Once an artifact is listed, its directory is there. -/
theorem ready_foldl_writeOne (pool : Pool) (programs : List LinkedProgram) (report : Report)
    (hready : report.artifacts ≠ [] → s.disk.Ready job.outDir) :
    let final := programs.foldl (writeOne job pool Disk.writeBelow) (s, report)
    final.2.artifacts ≠ [] → final.1.disk.Ready job.outDir := by
  induction programs generalizing s report with
  | nil => exact hready
  | cons linked rest ih =>
    dsimp only at ih ⊢
    rw [List.foldl_cons]
    rcases writeOne_cases job s pool report linked with
      ⟨-, hnext⟩ | ⟨-, disk, hwritten, hnext⟩ | ⟨-, disk, fault, hwritten, hnext⟩
    · rw [hnext]
      exact ih s _ hready
    · rw [hnext]
      exact ih _ _ fun _ => Disk.ready_of_written hwritten
    · have hgrows := Disk.grows_store job.outDir s.disk
        (artifactPath job.outDir linked.program.name, linked.program.artifact pool)
      rw [Disk.store, hwritten] at hgrows
      rw [hnext]
      exact ih _ _ fun hne => (hready hne).grows hgrows

theorem write_alongside (result : LinkedEffect) {paths : List String} {a b : Session}
    (h : Disk.Alongside job.outDir paths a.disk b.disk) :
    (write job result b).2 = (write job result a).2 ∧
      Disk.Alongside job.outDir paths (write job result a).1.disk (write job result b).1.disk ∧
      ((write job result a).2.artifacts ≠ [] → (write job result a).1.disk.Ready job.outDir) := by
  obtain ⟨hreport, hdisks⟩ :=
    foldl_writeOne_alongside job result.pool result.programs h ⟨[], []⟩
  exact ⟨hreport, hdisks, ready_foldl_writeOne job a result.pool result.programs ⟨[], []⟩ fun hne =>
    absurd rfl hne⟩

/-- The paths of the sources of a pool. -/
def dumpPaths (outDir : String) (pool : Pool) : List String := pool.shaders.map (dumpPath outDir)

theorem mem_dumpPaths_of_mem_dumpFiles {pool : Pool} {file : String × Bytes}
    (h : file ∈ dumpFiles job pool) : file.1 ∈ dumpPaths job.outDir pool := by
  unfold dumpFiles at h
  split at h
  · obtain ⟨shader, hshader, hfile⟩ := List.mem_flatMap.mp h
    obtain ⟨source, -, rfl⟩ := mem_shaderFiles hfile
    dsimp only
    exact List.mem_map_of_mem hshader
  · exact absurd h List.not_mem_nil

theorem write_withDump (dump : Bool) (result : LinkedEffect) :
    write (job.withDump dump) result s = write job result s := by
  have hone : writeOne (job.withDump dump) result.pool = writeOne job result.pool := rfl
  rw [write, hone, write]

theorem disk_link_quiet :
    (link (job.withDump false) backend effect s).1.disk = s.disk := by
  rw [link_disk, dumpFiles_eq_nil rfl]
  rfl

theorem disk_link_alongside :
    Disk.Alongside job.outDir
      (dumpPaths job.outDir (link (job.withDump true) backend effect s).2.pool) s.disk
      (link (job.withDump true) backend effect s).1.disk := by
  rw [link_disk]
  exact Disk.alongside_storeAll job.outDir s.disk fun file hfile =>
    mem_dumpPaths_of_mem_dumpFiles (job.withDump true) hfile

/-- The two runs, once the backend is there. -/
theorem run_alongside (hacquire : backend.acquire = .ok ())
    (hgenerate : ∀ shader, job.generate (job.withDump true).header shader =
      job.generate (job.withDump false).header shader)
    (hcompile : backend.compile (job.withDump true).header =
      backend.compile (job.withDump false).header) :
    let pool := (link (job.withDump true) backend effect (s.call .acquire)).2.pool
    let dumping := run (job.withDump true) backend effect s
    let quiet := run (job.withDump false) backend effect s
    dumping.2 = quiet.2 ∧
      Disk.Alongside job.outDir (dumpPaths job.outDir pool) quiet.1.disk dumping.1.disk ∧
      (quiet.2.artifacts ≠ [] → quiet.1.disk.Ready job.outDir) := by
  dsimp only
  have hresult := link_withDump job backend effect (s.call .acquire) hgenerate hcompile
  have hquiet := disk_link_quiet job backend effect (s.call .acquire)
  have hdisks := disk_link_alongside job backend effect (s.call .acquire)
  rw [← hquiet] at hdisks
  rw [run_of_acquire_ok _ backend effect s hacquire, run_of_acquire_ok _ backend effect s hacquire]
  dsimp only
  rw [write_withDump, write_withDump, hresult]
  rw [hresult] at hdisks
  exact write_alongside job _ hdisks

/-- With and without sources a run gives the same report, whether or not the sources can be written. An
artifact that can be read after the run without sources can be read after the other one, and has the same
bytes. The converse needs the directory of the artifacts, which is there once an artifact is listed: if it
is missing then the sources may have made it. But then a path leads to a file that was not there before
only through a double dot, if everything on the disk is in a directory. At the place that a path of an
artifact leads to with sources, the disks have the same file in any case, and they differ in no other file
than those where the paths of the sources lead. -/
theorem run_without_sources (job : Job) (backend : Backend U) (effect : Effect) (s : Session)
    (hgenerate : ∀ shader, job.generate (job.withDump true).header shader =
      job.generate (job.withDump false).header shader)
    (hcompile : backend.compile (job.withDump true).header =
      backend.compile (job.withDump false).header) :
    let pool := (link (job.withDump true) backend effect (s.call .acquire)).2.pool
    let dumping := run (job.withDump true) backend effect s
    let quiet := run (job.withDump false) backend effect s
    dumping.2 = quiet.2 ∧
    (∀ name bytes,
      let path := artifactPath job.outDir name
      (quiet.1.disk.read path = .ok bytes → dumping.1.disk.read path = .ok bytes) ∧
      (∀ place, dumping.1.disk.locate path = .ok place →
        (dumping.1.disk.get? place = some (.file bytes) ↔
          quiet.1.disk.get? place = some (.file bytes))) ∧
      (quiet.1.disk.Ready job.outDir ∨ (s.disk.Rooted ∧ ".." ∉ Path.names path) →
        (dumping.1.disk.read path = .ok bytes ↔ quiet.1.disk.read path = .ok bytes))) ∧
    (quiet.2.artifacts ≠ [] → quiet.1.disk.Ready job.outDir) ∧
    ∀ place bytes,
      (∀ shader ∈ pool.shaders, dumping.1.disk.locate (dumpPath job.outDir shader) ≠ .ok place) →
      (dumping.1.disk.get? place = some (.file bytes) ↔
        quiet.1.disk.get? place = some (.file bytes)) := by
  intro pool dumping quiet
  obtain ⟨hreport, hdisks, hready⟩ : dumping.2 = quiet.2 ∧
      Disk.Alongside job.outDir (dumpPaths job.outDir pool) quiet.1.disk dumping.1.disk ∧
      (quiet.2.artifacts ≠ [] → quiet.1.disk.Ready job.outDir) := by
    cases hacquire : backend.acquire with
    | error message =>
      -- both runs stop at once, on the disk they were given
      have hquiet : quiet = _ := run_of_acquire_error (job.withDump false) backend effect s hacquire
      have hsame : dumping = quiet :=
        (run_of_acquire_error (job.withDump true) backend effect s hacquire).trans hquiet.symm
      refine ⟨congrArg Prod.snd hsame, Or.inl (congrArg (·.1.disk) hsame), fun hne => ?_⟩
      exact absurd (congrArg (·.2.artifacts) hquiet) hne
    | ok _ => exact run_alongside job backend effect s hacquire hgenerate hcompile
  -- the last names of the paths differ in their extensions
  have hapart (name : String) : ∀ other ∈ dumpPaths job.outDir pool, ∀ place,
      dumping.1.disk.locate (artifactPath job.outDir name) = .ok place →
        dumping.1.disk.locate other ≠ .ok place := by
    intro other hother place hplace hsource
    obtain ⟨shader, -, rfl⟩ := List.mem_map.mp hother
    exact dumpPath_apart_artifactPath hsource hplace
  refine ⟨hreport, fun name bytes => ⟨?_, fun place hplace => ?_, fun hthere => ⟨?_, ?_⟩⟩, hready,
    fun place bytes hplace => ?_⟩
  · exact hdisks.read (hapart name)
  · exact hdisks.file_iff fun other hother => hapart name other hother place hplace
  · rcases hthere with hready | ⟨hrooted, hdots⟩
    · exact hdisks.read_of_ready hready (hapart name)
    · have hquiet : quiet.1.disk.Rooted := by
        dsimp only [quiet]
        rw [run_disk]
        exact hrooted.storeAll _ _
      exact hdisks.read_of_rooted hquiet hdots (hapart name)
  · exact hdisks.read (hapart name)
  · refine hdisks.file_iff fun other hother => ?_
    obtain ⟨shader, hshader, rfl⟩ := List.mem_map.mp hother
    exact hplace shader hshader

/-- The source of Amber cannot be written, and that of Crypt can. -/
theorem run_without_sources_lanterns :
    (∀ shader, lanternJob.generate (lanternJob.withDump true).header shader =
      lanternJob.generate (lanternJob.withDump false).header shader) ∧
    echo.compile (lanternJob.withDump true).header = echo.compile (lanternJob.withDump false).header ∧
    (run (lanternJob.withDump true) echo lanterns blockedSession).1.queue.errors =
      (run (lanternJob.withDump false) echo lanterns blockedSession).1.queue.errors + 1 ∧
    (run (lanternJob.withDump true) echo lanterns blockedSession).2 =
      ⟨["out/Amber.fxb", "out/Beacon.fxb", "out/Crypt.fxb"], ["Dusk"]⟩ ∧
    ∀ bytes,
      (run (lanternJob.withDump true) echo lanterns blockedSession).1.disk.read
        (artifactPath lanternJob.outDir "Amber") = .ok bytes ↔
      (run (lanternJob.withDump false) echo lanterns blockedSession).1.disk.read
        (artifactPath lanternJob.outDir "Amber") = .ok bytes := by
  have hgenerate : ∀ shader, lanternJob.generate (lanternJob.withDump true).header shader =
      lanternJob.generate (lanternJob.withDump false).header shader := fun _ => rfl
  have hlisted : (run (lanternJob.withDump false) echo lanterns blockedSession).2 =
      ⟨["out/Amber.fxb", "out/Beacon.fxb", "out/Crypt.fxb"], ["Dusk"]⟩ := by decide +kernel
  have herrors : (run (lanternJob.withDump true) echo lanterns blockedSession).1.queue.errors =
      (run (lanternJob.withDump false) echo lanterns blockedSession).1.queue.errors + 1 := by
    decide +kernel
  obtain ⟨hreport, hfiles, hready, -⟩ :=
    run_without_sources lanternJob echo lanterns blockedSession hgenerate rfl
  have hready := hready (by rw [hlisted]; exact List.cons_ne_nil _ _)
  refine ⟨hgenerate, rfl, herrors, hreport.trans hlisted, fun bytes => ?_⟩
  obtain ⟨-, -, hread⟩ := hfiles "Amber" bytes
  exact hread (Or.inl hready)

/-- A job whose directory is reached through one that is not there. -/
def detourJob : Job := { lanternJob with outDir := "new/../old" }

/-- A session with an artifact of Amber from an earlier run. -/
def oldSession : Session :=
  { emptySession with
    disk := ⟨[(["old"], .directory), (["old", "Amber.fxb"], .file [1, 2, 3])], []⟩ }

/-- A backend that compiles for those only who want their sources. -/
def curious : Backend String :=
  { echo with
    compile := fun header _ _ source =>
      if header.switches.dumpSources then .ok source else .error "nothing to see" }

/-- Sources leave traces in two ways. Amber cannot be linked, so nothing is written without sources, and
the path of its artifact leads nowhere; with sources the missing directory is made, and then the path
leads to the old artifact. And a backend that looks at the switch may link Amber in one run only. -/
theorem run_sources_leave_traces :
    let amber := lanterns.only (lantern "Amber" "warm")
    let path := artifactPath detourJob.outDir "Amber"
    ((run (detourJob.withDump true) dark amber oldSession).2 =
        (run (detourJob.withDump false) dark amber oldSession).2 ∧
      (run (detourJob.withDump true) dark amber oldSession).1.disk.read path = .ok [1, 2, 3] ∧
      (run (detourJob.withDump false) dark amber oldSession).1.disk.read path = .error .notFound) ∧
    (run (lanternJob.withDump true) curious amber emptySession).2 = ⟨["out/Amber.fxb"], []⟩ ∧
    (run (lanternJob.withDump false) curious amber emptySession).2 = ⟨[], ["Amber"]⟩ := by
  decide +kernel

end Linker

end EffectLink
