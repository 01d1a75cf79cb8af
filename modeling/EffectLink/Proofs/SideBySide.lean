import EffectLink.Proofs.EarlyReports
import EffectLink.Proofs.OwnPermutation
import EffectLink.Proofs.QueueMerging

namespace EffectLink

/-- The job with its programs linked side by side, or in turn. -/
def Job.withParallel (job : Job) (parallel : Bool) : Job :=
  { job with options := { job.options with parallel } }

namespace Linker

variable {U : Type}

section Tasks

variable (backend : Backend U) (units : List (Option U)) (header : Header)

/-- One program and the fork that it reports into, once it is linked. -/
def linkCell (cell : LinkedProgram × Queue) : LinkedProgram × Queue :=
  let outcome := linkOne backend units header cell.1
  (outcome.1, cell.2.addAll outcome.2)

/-- Runs the task of the program at position `i`. -/
def runTask (cells : List (LinkedProgram × Queue)) (i : Nat) : List (LinkedProgram × Queue) :=
  cells.modify i (linkCell backend units header)

/-- A task changes the cell of its program alone, so every cell is changed by its own task. -/
theorem getElem?_foldl_runTask {order : List Nat} (horder : order.Nodup)
    (cells : List (LinkedProgram × Queue)) (i : Nat) :
    (order.foldl (runTask backend units header) cells)[i]? = cells[i]?.map fun cell =>
      if i ∈ order then linkCell backend units header cell else cell := by
  induction order generalizing cells with
  | nil => simp
  | cons j rest ih =>
    obtain ⟨hj, hrest⟩ := List.nodup_cons.mp horder
    rw [List.foldl_cons, ih hrest, runTask, List.getElem?_modify, Option.map_eq_map,
      Option.map_map]
    congr 1
    funext cell
    by_cases hi : j = i
    · subst hi
      simp [hj]
    · simp [hi, Ne.symm hi]

/-- All tasks, in any order. -/
theorem foldl_runTask {order : List Nat} {cells : List (LinkedProgram × Queue)}
    (horder : order.Perm (List.range cells.length)) :
    order.foldl (runTask backend units header) cells = cells.map (linkCell backend units header) := by
  have hnodup : order.Nodup := horder.nodup_iff.mpr List.nodup_range
  apply List.ext_getElem?
  intro i
  rw [getElem?_foldl_runTask backend units header hnodup, List.getElem?_map]
  by_cases hi : i < cells.length
  · have hmem : i ∈ order := horder.mem_iff.mpr (List.mem_range.mpr hi)
    simp only [if_pos hmem]
  · rw [List.getElem?_eq_none (Nat.le_of_not_lt hi)]
    rfl

end Tasks

/-- Links the programs by tasks that run in the given order. Their forks are merged in the order of the
programs, and their calls are listed in it. -/
def linkTasks (order : List Nat) (job : Job) (backend : Backend U) (units : List (Option U))
    (programs : List LinkedProgram) (s : Session) : Session × List LinkedProgram :=
  let cells := order.foldl (runTask backend units job.header)
    (programs.map fun linked => (linked, s.queue.fork))
  let queue := (cells.map (·.2)).foldl Queue.merge s.queue
  let calls := s.calls ++ programs.flatMap (objectCalls backend units job.header)
  ({ s with queue, calls }, cells.map (·.1))

theorem linkTasks_eq {order : List Nat} {programs : List LinkedProgram}
    (horder : order.Perm (List.range programs.length)) (job : Job) (backend : Backend U)
    (units : List (Option U)) (s : Session) :
    linkTasks order job backend units programs s =
      linkAll (job.withParallel true) backend units programs s := by
  have hcells : order.foldl (runTask backend units job.header)
      (programs.map fun linked => (linked, s.queue.fork)) =
      programs.map fun linked => linkCell backend units job.header (linked, s.queue.fork) := by
    rw [foldl_runTask backend units job.header (by rw [List.length_map]; exact horder), List.map_map]
    rfl
  unfold linkTasks linkAll reportMerged
  rw [hcells]
  simp only [List.map_map]
  rfl

/-- Reports of programs with different names can go through forks. -/
theorem linkAll_withParallel (job : Job) (backend : Backend U) (units : List (Option U))
    {programs : List LinkedProgram} {s : Session} (hs : EarlySession s)
    (hnames : programs.Pairwise fun a b => a.ok = true → b.ok = true →
      a.program.name ≠ b.program.name) :
    linkAll (job.withParallel true) backend units programs s =
      linkAll (job.withParallel false) backend units programs s := by
  have hnodup := nodup_reports backend units job.header hnames
  have hfresh : ∀ d ∈ (programs.map fun linked =>
      (linkOne backend units job.header linked).2).flatten, d ∉ s.queue.remembered := by
    intro d hd hseen
    obtain ⟨ds, hds, hd⟩ := List.mem_flatten.mp hd
    obtain ⟨linked, -, rfl⟩ := List.mem_map.mp hds
    have hlinking := ((linkOne_report backend units job.header linked).own d hd).1
    rw [hs d hseen] at hlinking
    contradiction
  have hmerged := reportMerged_eq hnodup hfresh
  unfold linkAll
  simp only [List.map_map]
  let calls := s.calls ++ programs.flatMap (objectCalls backend units job.header)
  exact congrArg (fun queue => (({ s with queue, calls } : Session), _)) hmerged

section Options

variable (job : Job) (parallel : Bool)

/-- Validation does not look at how programs are linked. -/
theorem validateAll_withParallel (t : SymbolTable) (decls : List ProgramDecl) :
    validateAll (job.withParallel parallel).options t decls = validateAll job.options t decls := by
  induction decls generalizing t with
  | nil => rfl
  | cons decl rest ih =>
    have hvalidate : (Program.ofDecl decl).validate t (job.withParallel parallel).options =
      (Program.ofDecl decl).validate t job.options := rfl
    rw [validateAll_cons, validateAll_cons, hvalidate]
    simp only [ih]

theorem compileAll_withParallel (backend : Backend U) (s : Session) (shaders : List Shader) :
    compileAll (job.withParallel parallel) backend s shaders = compileAll job backend s shaders := by
  induction shaders generalizing s with
  | nil => rfl
  | cons shader rest ih =>
    have hshader : compileShader (job.withParallel parallel) backend s shader =
      compileShader job backend s shader := rfl
    rw [compileAll, compileAll, hshader]
    simp only [ih]

theorem units_withParallel (backend : Backend U) (pool : Pool) (s : Session) :
    units (job.withParallel parallel) backend pool s = units job backend pool s := by
  unfold units
  rw [compileAll_withParallel]
  rfl

theorem resolution_withParallel (effect : Effect) (s : Session) :
    resolution (job.withParallel parallel) effect s = resolution job effect s := by
  unfold resolution admitted symbols
  rw [validateAll_withParallel]
  rfl

theorem reported_withParallel (effect : Effect) (s : Session) :
    reported (job.withParallel parallel) effect s = reported job effect s := by
  unfold reported
  rw [validateAll_withParallel, resolution_withParallel]

end Options

/-- A link run with one task for each program; the tasks run in the given order. -/
def linkInOrder (order : List Nat) (job : Job) (backend : Backend U) (effect : Effect)
    (s : Session) : Session × LinkedEffect :=
  linkBy job effect s (linkTasks order job backend) backend

theorem link_withParallel (job : Job) (parallel : Bool) (backend : Backend U) (effect : Effect)
    (s : Session) :
    link (job.withParallel parallel) backend effect s =
      linkBy job effect s (linkAll (job.withParallel parallel) backend) backend := by
  rw [link_eq, linkBy, resolution_withParallel, reported_withParallel, units_withParallel]
  rfl

/-- From an empty queue, linking side by side gives the programs, statuses, pool and queue that linking
in turn gives, for any limit and any treatment of duplicates, in whatever order the tasks of the
programs run. -/
theorem link_side_by_side (job : Job) (backend : Backend U) (effect : Effect) (config : QueueConfig)
    (disk : Disk) (calls : List Call) :
    let s : Session := ⟨.empty config, disk, calls⟩
    link (job.withParallel true) backend effect s = link (job.withParallel false) backend effect s ∧
    ∀ order : List Nat, order.Perm (List.range effect.programs.length) →
      linkInOrder order job backend effect s = link (job.withParallel false) backend effect s := by
  intro s
  have hstart : EarlySession s := allOf_nil
  have hcompiled :=
    (hstart.reported job effect).units job backend (resolution job effect s).pool Disk.writeBelow
  have hlinked := linkAll_withParallel job backend
    (units job backend (resolution job effect s).pool (reported job effect s)).2 hcompiled
    (pairwise_names_resolution job effect s)
  have hparallel : link (job.withParallel true) backend effect s =
      link (job.withParallel false) backend effect s := by
    rw [link_withParallel, link_withParallel, linkBy, hlinked]
    rfl
  refine ⟨hparallel, fun order horder => ?_⟩
  rw [← length_resolution job effect s] at horder
  rw [← hparallel, link_withParallel, linkInOrder, linkBy, linkTasks_eq horder]
  rfl

/-- A backend that links nothing. -/
def dark : Backend String := { echo with link := fun _ _ => .error "no light" }

/-- Dusk fails before linking and the other three at it, with room for two errors only. -/
theorem link_side_by_side_lanterns :
    [2, 0, 3, 1].Perm (List.range lanterns.programs.length) ∧
    linkInOrder [2, 0, 3, 1] lanternJob dark lanterns ⟨.empty ⟨2, true⟩, ⟨[], []⟩, []⟩ =
      link (lanternJob.withParallel false) dark lanterns ⟨.empty ⟨2, true⟩, ⟨[], []⟩, []⟩ ∧
    (link (lanternJob.withParallel true) dark lanterns
      ⟨.empty ⟨2, true⟩, ⟨[], []⟩, []⟩).1.queue.errors = 4 ∧
    (link (lanternJob.withParallel true) dark lanterns
      ⟨.empty ⟨2, true⟩, ⟨[], []⟩, []⟩).1.queue.kept.map (·.code) =
        [.unresolvedReference, .linkFailure] := by
  have horder : [2, 0, 3, 1].Perm (List.range lanterns.programs.length) := by decide
  obtain ⟨hparallel, htasks⟩ :=
    link_side_by_side lanternJob dark lanterns ⟨2, true⟩ ⟨[], []⟩ []
  refine ⟨horder, htasks _ horder, ?_, ?_⟩
  · rw [hparallel]
    decide
  · rw [hparallel]
    decide

end Linker

end EffectLink
