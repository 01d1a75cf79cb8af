import EffectLink.Proofs.BackendLinking

namespace EffectLink

/-- The codes that the linking of a program reports under. -/
def Code.ofLinking : Code → Bool
  | .linkFailure | .reflectionFailure | .binaryFailure | .noStrategy | .internalError => true
  | _ => false

/-- The codes that errors of declarations and programs are reported under before shaders are compiled. -/
def Code.ofChecking (code : Code) : Bool :=
  match code.phase with
  | .symbols | .programs => !code.isWarning
  | _ => false

theorem Code.ofLinking_of_ofChecking {code : Code} (h : code.ofChecking = true) :
    code.ofLinking = false := by
  cases code <;> revert h <;> decide

/-- Contexts of programs tell their names. -/
theorem Diagnostic.programContext_injective {a b : String}
    (h : s!"program '{a}'" = s!"program '{b}'") : a = b := by
  have hlist : "program '".toList ++ (a.toList ++ "'".toList) =
      "program '".toList ++ (b.toList ++ "'".toList) := by
    have htext := congrArg String.toList h
    change ("program '" ++ a ++ "'").toList = ("program '" ++ b ++ "'").toList at htext
    simpa only [String.toList_append, List.append_assoc] using htext
  exact String.toList_inj.mp (List.append_cancel_right (List.append_cancel_left hlist))

namespace Program

variable {U : Type} {name : String}

/-- A diagnostic that the linking of the program `name` reports. -/
def OwnDiagnostic (name : String) (d : Diagnostic) : Prop :=
  d.code.ofLinking = true ∧ d.context = some s!"program '{name}'"

/-- A report of the program `name` about its linking. -/
structure OwnReport (name : String) (ds : List Diagnostic) : Prop where
  nodup : ds.Nodup
  own : ∀ d ∈ ds, OwnDiagnostic name d

theorem ownReport_nil (name : String) : OwnReport name [] :=
  ⟨List.nodup_nil, fun _ hd => absurd hd List.not_mem_nil⟩

theorem ownReport_singleton {d : Diagnostic} (h : OwnDiagnostic name d) : OwnReport name [d] := by
  refine ⟨List.pairwise_singleton _ _, fun a ha => ?_⟩
  rw [List.mem_singleton.mp ha]
  exact h

/-- The reports of two programs have nothing in common. -/
theorem OwnReport.disjoint {other : String} {ds ds' : List Diagnostic} (h : OwnReport name ds)
    (h' : OwnReport other ds') (hne : name ≠ other) : ∀ a ∈ ds, ∀ b ∈ ds', a ≠ b := by
  rintro a ha b hb rfl
  have hcontext := (h.own a ha).2.symm.trans (h'.own a hb).2
  exact hne (Diagnostic.programContext_injective (Option.some.inj hcontext))

def binaryMessage (stage : Stage) : String := s!"failed to translate {stage.label} stage to binary"

/-- What is reported once the stages in `done` were to get their binaries: at most one message for
each of them, in their order. -/
structure BinaryReport (name : String) (done : List Stage) (r : BackendLinked) : Prop where
  program : r.program.name = name
  messages : (r.diagnostics.map (·.message)).Sublist (done.map binaryMessage)
  own : ∀ d ∈ r.diagnostics, OwnDiagnostic name d

theorem BinaryReport.step {done : List Stage} {r : BackendLinked} (h : BinaryReport name done r)
    (binary : Stage → Except String (List UInt32)) (stage : Stage) :
    BinaryReport name (done ++ [stage]) (addBinary binary r stage) := by
  have hmessages : (r.diagnostics.map (·.message)).Sublist ((done ++ [stage]).map binaryMessage) := by
    rw [List.map_append]
    exact h.messages.trans (List.sublist_append_left _ _)
  unfold addBinary
  cases r.program.slot stage with
  | none => exact ⟨h.program, hmessages, h.own⟩
  | some slot =>
    dsimp only
    cases binary stage with
    | ok words => exact ⟨h.program, hmessages, h.own⟩
    | error log =>
      refine ⟨h.program, ?_, fun d hd => ?_⟩
      · rw [List.map_append, List.map_append]
        exact h.messages.append (List.Sublist.refl _)
      · rcases List.mem_append.mp hd with hd | hd
        · exact h.own d hd
        · rw [List.mem_singleton.mp hd, h.program]
          exact ⟨rfl, rfl⟩

theorem BinaryReport.foldl {done : List Stage} {r : BackendLinked} (h : BinaryReport name done r)
    (binary : Stage → Except String (List UInt32)) (stages : List Stage) :
    BinaryReport name (done ++ stages) (stages.foldl (addBinary binary) r) := by
  induction stages generalizing done r with
  | nil =>
    rw [List.append_nil]
    exact h
  | cons stage rest ih =>
    have hnext := ih (h.step binary stage)
    rw [List.append_assoc] at hnext
    exact hnext

theorem BinaryReport.ownReport {r : BackendLinked} (h : BinaryReport name Stage.all r) :
    OwnReport name r.diagnostics := by
  have hdistinct : (Stage.all.map binaryMessage).Nodup := by decide
  exact ⟨List.Pairwise.of_map _ (fun a b hne => fun hab => hne (congrArg _ hab))
    (h.messages.nodup hdistinct), h.own⟩

theorem linkAndReflect_report (p : Program) (backend : Backend U) (units : List (Option U))
    (binaries : Bool) : OwnReport p.name (p.linkAndReflect backend units binaries).diagnostics := by
  rcases p.linkAndReflect_cases backend units binaries with
    ⟨faults, calls, hunits, hr⟩ | ⟨code, message, log, calls, hcode, hr⟩ |
      ⟨found, live, calls, -, -, -, hr⟩
  · rw [hr]
    rcases stageUnits_error hunits with ⟨-, rfl⟩ | ⟨stage, slot, -, -, rfl⟩
    · exact ownReport_nil p.name
    · exact ownReport_singleton ⟨rfl, rfl⟩
  · rw [hr]
    rcases hcode with rfl | rfl
    · exact ownReport_singleton ⟨rfl, rfl⟩
    · exact ownReport_singleton ⟨rfl, rfl⟩
  · rw [hr]
    dsimp only
    split
    · have hstart : BinaryReport p.name []
          ⟨{ p with reflection := p.reflection.addLive live }, [], true, calls⟩ :=
        ⟨rfl, List.Sublist.refl _, fun _ hd => absurd hd List.not_mem_nil⟩
      exact (hstart.foldl (backend.binary p.name found) Stage.all).ownReport
    · exact ownReport_nil p.name

theorem linkWith_report (p : Program) (backend : Backend U) (units : List (Option U))
    (header : Header) : OwnReport p.name (p.linkWith backend units header).diagnostics := by
  unfold linkWith
  cases Strategy.ofHeader header with
  | portable => exact linkAndReflect_report p backend units true
  | reflect => exact linkAndReflect_report p backend units false
  | stub => exact ownReport_nil p.name
  | unsupported => exact ownReport_singleton ⟨rfl, rfl⟩

end Program

namespace Linker

variable {U : Type}

theorem linkOne_report (backend : Backend U) (units : List (Option U)) (header : Header)
    (linked : LinkedProgram) :
    Program.OwnReport linked.program.name (linkOne backend units header linked).2 := by
  unfold linkOne
  split
  · exact linked.program.linkWith_report backend units header
  · exact Program.ownReport_nil _

/-- No diagnostic is reported by two programs, or twice by one, if the programs that are linked have
different names. -/
theorem nodup_reports (backend : Backend U) (units : List (Option U)) (header : Header)
    {programs : List LinkedProgram}
    (h : programs.Pairwise fun a b => a.ok = true → b.ok = true →
      a.program.name ≠ b.program.name) :
    (programs.map fun linked => (linkOne backend units header linked).2).flatten.Nodup := by
  induction programs with
  | nil => exact List.nodup_nil
  | cons linked programs ih =>
    obtain ⟨hfirst, hrest⟩ := List.pairwise_cons.mp h
    have hreport := linkOne_report backend units header linked
    rw [List.map_cons, List.flatten_cons]
    refine List.nodup_append.mpr ⟨hreport.nodup, ih hrest, fun a ha b hb => ?_⟩
    obtain ⟨ds, hds, hb⟩ := List.mem_flatten.mp hb
    obtain ⟨other, hother, rfl⟩ := List.mem_map.mp hds
    have hactive (l : LinkedProgram) {d : Diagnostic}
        (hd : d ∈ (linkOne backend units header l).2) : l.ok = true := by
      unfold linkOne at hd
      split at hd
      · assumption
      · exact absurd hd List.not_mem_nil
    exact hreport.disjoint (linkOne_report backend units header other)
      (hfirst other hother (hactive linked ha) (hactive other hb)) a ha b hb

end Linker

end EffectLink
