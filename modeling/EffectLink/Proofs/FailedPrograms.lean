import EffectLink.Proofs.CountedErrors
import EffectLink.Proofs.InternalErrors
import EffectLink.Proofs.SideBySide
import EffectLink.Proofs.WrittenFiles

namespace EffectLink

namespace Program

variable {U : Type}

/-- A program that is linked has nothing to report. One that cannot be linked has met a shader that did
not compile, or reports an error. -/
theorem linkAndReflect_status (p : Program) (backend : Backend U) (units : List (Option U))
    (binaries : Bool) :
    let r := p.linkAndReflect backend units binaries
    (r.ok = true ∧ r.diagnostics = []) ∨
    (r.ok = false ∧ (none ∈ units ∨ ∃ d ∈ r.diagnostics, d.isError = true)) := by
  dsimp only
  rcases p.linkAndReflect_cases backend units binaries with
    ⟨faults, calls, hunits, hr⟩ | ⟨code, message, log, calls, -, hr⟩ |
      ⟨found, live, calls, -, -, -, hr⟩
  · rw [hr]
    refine Or.inr ⟨rfl, ?_⟩
    rcases stageUnits_error hunits with ⟨hnone, -⟩ | ⟨stage, slot, -, -, hfaults⟩
    · exact Or.inl hnone
    · rw [hfaults]
      exact Or.inr ⟨_, List.mem_singleton_self _, rfl⟩
  · rw [hr]
    exact Or.inr ⟨rfl, Or.inr ⟨_, List.mem_singleton_self _, rfl⟩⟩
  · rw [hr]
    cases binaries with
    | false => exact Or.inl ⟨rfl, rfl⟩
    | true =>
      dsimp only
      rw [if_pos rfl]
      have htranslated := translating_all { p with reflection := p.reflection.addLive live }
        (backend.binary p.name found) calls
      generalize Stage.all.foldl _ _ = r at htranslated ⊢
      -- each stage without a binary has added its error
      rw [htranslated.status]
      cases hdiagnostics : r.diagnostics with
      | nil => exact Or.inl ⟨rfl, rfl⟩
      | cons d rest =>
        have hd := htranslated.errors d (by rw [hdiagnostics]; exact List.mem_cons_self)
        exact Or.inr ⟨rfl, Or.inr ⟨d, List.mem_cons_self, hd⟩⟩

theorem linkWith_status (p : Program) (backend : Backend U) (units : List (Option U))
    (header : Header) :
    let r := p.linkWith backend units header
    (r.ok = true ∧ ∀ d ∈ r.diagnostics, d.isError = false) ∨
    (r.ok = false ∧ (none ∈ units ∨ ∃ d ∈ r.diagnostics, d.isError = true)) := by
  dsimp only
  rcases p.linkWith_cases backend units header with ⟨-, binaries, hr⟩ | ⟨-, warnings, hwarnings, hr⟩
  · rw [hr]
    refine (p.linkAndReflect_status backend units binaries).imp_left fun ⟨hok, hnone⟩ => ⟨hok, ?_⟩
    rw [hnone]
    exact fun _ hd => absurd hd List.not_mem_nil
  · rw [hr]
    exact Or.inl ⟨rfl, hwarnings⟩

end Program

namespace Linker

variable {U : Type} {job : Job} {backend : Backend U} {effect : Effect} {s : Session}
  {medium : Medium}

theorem compileShader_none_errors {shader : Shader} (hqueue : s.queue.Tallied)
    (h : (compileShader job backend s shader medium).2 = none) :
    0 < (compileShader job backend s shader medium).1.queue.errors := by
  rcases compileShader_cases job backend s shader with
    ⟨message, -, hr⟩ | ⟨source, -, ⟨unit, -, hr⟩ | ⟨log, -, hr⟩⟩
  · rw [hr]
    exact hqueue.errors_add_pos rfl
  · rw [hr] at h
    contradiction
  · have hdumped : (dumped job s shader source medium).queue.Tallied := by
      unfold dumped
      split
      · exact (compiling_dumpSource _ _ _ _).tallied hqueue
      · exact hqueue
    rw [hr]
    exact Queue.Tallied.errors_add_pos hdumped rfl

theorem compileAll_none_errors {shaders : List Shader} (hqueue : s.queue.Tallied)
    (h : none ∈ (compileAll job backend s shaders medium).2) :
    0 < (compileAll job backend s shaders medium).1.queue.errors := by
  induction shaders generalizing s with
  | nil => exact absurd h List.not_mem_nil
  | cons shader rest ih =>
    have hfirst := compiling_compileShader (s := s) job backend shader medium
    change none ∈ (compileShader job backend s shader medium).2 :: _ at h
    rcases List.mem_cons.mp h with hnone | hrest
    · calc 0 < (compileShader job backend s shader medium).1.queue.errors :=
          compileShader_none_errors hqueue hnone.symm
        _ ≤ (compileAll job backend s (shader :: rest) medium).1.queue.errors :=
          (compiling_compileAll job backend rest medium).errors_le
    · exact ih (hfirst.tallied hqueue) hrest

theorem units_none_errors {pool : Pool} (hqueue : s.queue.Tallied)
    (h : none ∈ (units job backend pool s medium).2) : 0 < (units job backend pool s medium).1.queue.errors := by
  unfold units at h ⊢
  split at h
  · next hneeds =>
    rw [if_pos hneeds]
    exact compileAll_none_errors hqueue h
  · exact absurd h List.not_mem_nil

theorem exists_fault_of_not_ok {options : LinkOptions} {t : SymbolTable} {decls : List ProgramDecl}
    {linked : LinkedProgram} (hmem : linked ∈ (validateAll options t decls).programs)
    (hok : linked.ok = false) : ∃ d, d ∈ (validateAll options t decls).faults := by
  induction decls generalizing t with
  | nil => exact absurd hmem List.not_mem_nil
  | cons decl rest ih =>
    rw [validateAll_cons] at hmem ⊢
    rcases List.mem_cons.mp hmem with rfl | hmem
    · obtain ⟨d, hd⟩ := List.exists_mem_of_ne_nil _ (List.isEmpty_eq_false_iff.mp hok)
      exact ⟨d, List.mem_append_left _ hd⟩
    · obtain ⟨d, hd⟩ := ih hmem
      exact ⟨d, List.mem_append_right _ hd⟩

/-- Giving out shaders fails no program, so a program that does not go on has not been admitted. -/
theorem exists_admitted_of_not_ok {linked : LinkedProgram}
    (hmem : linked ∈ (resolution job effect s).programs) (hok : linked.ok = false) :
    ∃ before ∈ admitted job effect s, before.ok = false := by
  have hstatus : linked.ok ∈ (admitted job effect s).map (·.ok) := by
    rw [← statuses_resolution]
    exact List.mem_map_of_mem hmem
  obtain ⟨before, hbefore, heq⟩ := List.mem_map.mp hstatus
  exact ⟨before, hbefore, heq.trans hok⟩

theorem reported_errors_of_not_ok {linked : LinkedProgram} (hqueue : s.queue.Tallied)
    (hmem : linked ∈ (resolution job effect s).programs) (hok : linked.ok = false) :
    0 < (reported job effect s).queue.errors := by
  obtain ⟨before, hbefore, hfailed⟩ := exists_admitted_of_not_ok hmem hok
  obtain ⟨validated, hvalidated, rfl⟩ := List.mem_map.mp hbefore
  have hdeclared : (s.report (effect.check .empty).faults).queue.Tallied := hqueue.addAll _
  have hwarned := Queue.errors_le_addAll ((s.report (effect.check .empty).faults).report
    (validateAll job.options (effect.check .empty).table effect.programs).faults).queue
    (resolution job effect s).diagnostics
  refine Nat.lt_of_lt_of_le ?_ hwarned
  rcases Bool.and_eq_false_iff.mp hfailed with hfault | hsound
  · obtain ⟨d, hd⟩ := exists_fault_of_not_ok hvalidated hfault
    exact hdeclared.errors_addAll_pos hd (flaws_validateAll _ _ _ d hd).1
  · -- the declarations have added to the count, which goes up only
    have hgrown := Queue.errors_le_addAll s.queue (effect.check .empty).faults
    have hchanged : (s.report (effect.check .empty).faults).queue.errors ≠ s.queue.errors :=
      bne_iff_ne.mp (by rw [bne, ← sound, hsound]; rfl)
    have hpos : 0 < (s.report (effect.check .empty).faults).queue.errors :=
      Nat.lt_of_le_of_lt (Nat.zero_le _) (Nat.lt_of_le_of_ne hgrown hchanged.symm)
    exact Nat.lt_of_lt_of_le hpos (Queue.errors_le_addAll _ _)

theorem linkAll_errors_of_mem {units : List (Option U)} {programs : List LinkedProgram}
    {linked : LinkedProgram} {d : Diagnostic} (hqueue : s.queue.Tallied) (hmem : linked ∈ programs)
    (hd : d ∈ (linkOne backend units job.header linked).2) (herror : d.isError = true) :
    0 < (linkAll job backend units programs s).1.queue.errors := by
  have hreport : (linkOne backend units job.header linked).2 ∈
      (programs.map (linkOne backend units job.header)).map (·.2) :=
    List.mem_map_of_mem (List.mem_map_of_mem hmem)
  unfold linkAll
  dsimp only
  split
  · exact errors_reportMerged_pos hqueue hreport hd herror
  · exact errors_reportInTurn_pos hqueue hreport hd herror

theorem linkAll_receives (job : Job) (backend : Backend U) (s : Session) (units : List (Option U))
    (programs : List LinkedProgram) :
    s.queue.Receives (fun _ => True) (linkAll job backend units programs s).1.queue :=
  receives_linkAll job backend units s fun _ _ _ _ => trivial

theorem link_receives (job : Job) (backend : Backend U) (effect : Effect) (s : Session) :
    s.queue.Receives (fun _ => True) (link job backend effect s medium).1.queue := by
  have hearly : EarlyUntil s
      (units job backend (resolution job effect s).pool (reported job effect s) medium).1 :=
    (earlyUntil_reported job effect).trans (earlyUntil_units job backend _ _)
  rw [link_eq]
  exact (hearly.mono fun _ _ => trivial).trans (linkAll_receives job backend _ _ _)

/-- A program that linking has given up is accounted for by an error. -/
theorem link_errors_of_not_ok {linked : LinkedProgram} (hqueue : s.queue.Tallied)
    (hmem : linked ∈ (link job backend effect s medium).2.programs) (hok : linked.ok = false) :
    0 < (link job backend effect s medium).1.queue.errors := by
  have hreported := (earlyUntil_reported job effect).tallied hqueue
  have hcompiled :=
    (earlyUntil_units job backend (resolution job effect s).pool medium).tallied hreported
  have hlater := (linkAll_receives job backend
    (units job backend (resolution job effect s).pool (reported job effect s) medium).1
    (units job backend (resolution job effect s).pool (reported job effect s) medium).2
    (resolution job effect s).programs).errors_le
  rw [link_eq] at hmem ⊢
  obtain ⟨outcome, houtcome, rfl⟩ := List.mem_map.mp hmem
  obtain ⟨before, hbefore, rfl⟩ := List.mem_map.mp houtcome
  by_cases hstarted : before.ok = true
  · rw [linkOne, if_pos hstarted] at hok
    rcases before.program.linkWith_status backend _ job.header with
      ⟨hlinked, -⟩ | ⟨-, hnone | ⟨d, hd, herror⟩⟩
    · exact absurd (hlinked.symm.trans hok) Bool.noConfusion
    -- the error was reported when the shader was compiled, perhaps for another program
    · exact Nat.lt_of_lt_of_le (units_none_errors hreported hnone) hlater
    · refine linkAll_errors_of_mem hcompiled hbefore ?_ herror
      rw [linkOne, if_pos hstarted]
      exact hd
  · rw [linkOne, if_neg hstarted] at hok
    have hpos := reported_errors_of_not_ok hqueue hbefore hok
    have hunits := (earlyUntil_units (s := reported job effect s) job backend
      (resolution job effect s).pool medium).errors_le
    exact Nat.lt_of_lt_of_le (Nat.lt_of_lt_of_le hpos hunits) hlater

/-- A program is listed as failed only where errors are counted. -/
structure Blamed (state : Session × Report) : Prop where
  tallied : state.1.queue.Tallied
  counted : state.2.failed ≠ [] → 0 < state.1.queue.errors

theorem Blamed.writeOne {state : Session × Report} (h : Blamed state) (job : Job) (pool : Pool)
    (medium : Medium)
    {linked : LinkedProgram} (hlinked : linked.ok = false → 0 < state.1.queue.errors) :
    Blamed (Linker.writeOne job pool medium state linked) ∧
      state.1.queue.errors ≤ (Linker.writeOne job pool medium state linked).1.queue.errors := by
  obtain ⟨s, report⟩ := state
  rcases writeOne_cases job s pool report linked with
    ⟨hok, hnext⟩ | ⟨-, disk, -, hnext⟩ | ⟨-, disk, fault, -, hnext⟩
  · rw [hnext]
    exact ⟨⟨h.tallied, fun _ => hlinked hok⟩, Nat.le_refl _⟩
  · rw [hnext]
    exact ⟨⟨h.tallied, h.counted⟩, Nat.le_refl _⟩
  · rw [hnext]
    exact ⟨⟨h.tallied.add _, fun _ => h.tallied.errors_add_pos rfl⟩,
      Queue.errors_le_errors_add _ _⟩

theorem Blamed.foldl {state : Session × Report} (h : Blamed state) (job : Job) (pool : Pool)
    (medium : Medium)
    {programs : List LinkedProgram}
    (hprograms : ∀ linked ∈ programs, linked.ok = false → 0 < state.1.queue.errors) :
    Blamed (programs.foldl (Linker.writeOne job pool medium) state) := by
  induction programs generalizing state with
  | nil => exact h
  | cons linked rest ih =>
    obtain ⟨hlinked, hrest⟩ := List.forall_mem_cons.mp hprograms
    obtain ⟨hnext, hle⟩ := h.writeOne job pool medium hlinked
    exact ih hnext fun later hmem hok => Nat.lt_of_lt_of_le (hrest later hmem hok) hle

/-- If a run lists a program as failed, then its queue counts an error when it returns. The queue may
have any configuration and any history before the run, and files may or may not get written; the error
may be one that the queue refused as a duplicate or dropped past its limit. -/
theorem run_failed_counted (job : Job) (backend : Backend U) (effect : Effect) (s : Session)
    (medium : Medium) (hqueue : s.queue.Arises)
    (hfailed : (run job backend effect s medium).2.failed ≠ []) :
    0 < (run job backend effect s medium).1.queue.errors := by
  have htallied := hqueue.tallied
  cases hacquire : backend.acquire with
  | error message =>
    rw [run_of_acquire_error job backend effect s hacquire]
    exact Queue.Tallied.errors_add_pos htallied rfl
  | ok _ =>
    rw [run_of_acquire_ok job backend effect s hacquire] at hfailed ⊢
    have hlinked : Blamed ((link job backend effect (s.call .acquire) medium).1, ⟨[], []⟩) :=
      ⟨(link_receives _ _ _ _).tallied htallied, fun h => absurd rfl h⟩
    have hwritten := hlinked.foldl job (link job backend effect (s.call .acquire) medium).2.pool medium
      fun _ hmem hok => link_errors_of_not_ok htallied hmem hok
    exact hwritten.counted hfailed

/-- A session with room for one error, which has had a warning. -/
def warnedSession : Session :=
  ⟨(Queue.empty ⟨1, true⟩).add (.plain .warning .noStrategy "d"), ⟨[], []⟩, []⟩

/-- Side by side, Amber and Beacon fail for the shader that they share, Crypt for one of its own, and
Dusk has failed before that. Only the first error is kept. -/
theorem run_failed_counted_mute :
    let job := muteJob.withParallel true
    warnedSession.queue.Arises ∧ warnedSession.queue.errors = 0 ∧
    (run job echo lanterns warnedSession).2.failed = ["Amber", "Beacon", "Crypt", "Dusk"] ∧
    0 < (run job echo lanterns warnedSession).1.queue.errors := by
  intro job
  have harises : warnedSession.queue.Arises := .add (.empty _) _
  have hfailed : (run job echo lanterns warnedSession).2.failed =
      ["Amber", "Beacon", "Crypt", "Dusk"] := by decide
  refine ⟨harises, by decide, hfailed, run_failed_counted _ _ _ _ _ harises ?_⟩
  rw [hfailed]
  exact List.cons_ne_nil _ _

end Linker

end EffectLink
