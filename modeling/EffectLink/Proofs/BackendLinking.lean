import EffectLink.Linker

namespace EffectLink

namespace Program

variable {U : Type} {p : Program}

/-- What a stage finds among the compiled shaders: nothing, a shader that did not compile, or a unit. -/
def unitAt (units : List (Option U)) (slot : StageSlot) : Option (Option U) :=
  slot.shader.bind fun id => units[id]?

/-- Every populated stage finds an entry among the compiled shaders. -/
def Supplied (units : List (Option U)) (p : Program) : Prop :=
  ∀ stage slot, p.slot stage = some slot → (unitAt units slot).isSome = true

/-- The fault of a stage that finds nothing. -/
def missingUnit (p : Program) (stage : Stage) (slot : StageSlot) : Diagnostic :=
  (Diagnostic.error .internalError s!"{stage.label} stage has no compiled shader"
    slot.location).inProgram p.name

/-- What one stage can do to the search for units. -/
theorem stageUnits_cases (p : Program) (units : List (Option U)) (stage : Stage) (rest : List Stage) :
    (p.slot stage = none ∧ p.stageUnits units (stage :: rest) = p.stageUnits units rest) ∨
    ∃ slot, p.slot stage = some slot ∧
      ((∃ unit, unitAt units slot = some (some unit) ∧
        p.stageUnits units (stage :: rest) =
          (p.stageUnits units rest).map fun more => (stage, unit) :: more) ∨
      (unitAt units slot = some none ∧ p.stageUnits units (stage :: rest) = .error []) ∨
      (unitAt units slot = none ∧
        p.stageUnits units (stage :: rest) = .error [p.missingUnit stage slot])) := by
  rw [stageUnits]
  cases p.slot stage with
  | none => exact Or.inl ⟨rfl, rfl⟩
  | some slot =>
    refine Or.inr ⟨slot, rfl, ?_⟩
    dsimp only
    rw [show (slot.shader.bind fun id => units[id]?) = unitAt units slot from rfl]
    cases unitAt units slot with
    | none => exact Or.inr (Or.inr ⟨rfl, rfl⟩)
    | some entry =>
      cases entry with
      | none => exact Or.inr (Or.inl ⟨rfl, rfl⟩)
      | some unit =>
        refine Or.inl ⟨unit, rfl, ?_⟩
        cases p.stageUnits units rest <;> rfl

/-- A search that fails has met a shader that did not compile, and reports nothing, or it reports the
first stage that finds nothing. -/
theorem stageUnits_error {units : List (Option U)} {stages : List Stage} {faults : List Diagnostic}
    (h : p.stageUnits units stages = .error faults) :
    (none ∈ units ∧ faults = []) ∨ ∃ stage slot, p.slot stage = some slot ∧
      unitAt units slot = none ∧ faults = [p.missingUnit stage slot] := by
  induction stages with
  | nil => contradiction
  | cons stage rest ih =>
    rcases p.stageUnits_cases units stage rest with ⟨-, hnext⟩ | ⟨slot, hslot, hfound⟩
    · exact ih (hnext.symm.trans h)
    · rcases hfound with ⟨unit, -, hnext⟩ | ⟨hnone, hnext⟩ | ⟨hnone, hnext⟩
      · rw [hnext] at h
        cases hrest : p.stageUnits units rest with
        | ok more =>
          rw [hrest] at h
          contradiction
        | error others =>
          rw [hrest] at h
          cases h
          exact ih hrest
      · rw [hnext] at h
        cases h
        obtain ⟨id, -, hat⟩ := Option.bind_eq_some_iff.mp hnone
        exact Or.inl ⟨List.mem_of_getElem? hat, rfl⟩
      · rw [hnext] at h
        cases h
        exact Or.inr ⟨stage, slot, hslot, hnone, rfl⟩

/-- Stages that find their entries have nothing to report. -/
theorem Supplied.stageUnits_error {units : List (Option U)} (h : p.Supplied units)
    {stages : List Stage} {faults : List Diagnostic}
    (herror : p.stageUnits units stages = .error faults) : faults = [] := by
  rcases Program.stageUnits_error herror with ⟨-, hnone⟩ | ⟨stage, slot, hslot, hmissing, -⟩
  · exact hnone
  · have hentry := h stage slot hslot
    rw [hmissing] at hentry
    contradiction

/-- The units of the populated stages, in pipeline order. Stages without a unit are left out. -/
def foundUnits (p : Program) (units : List (Option U)) (stages : List Stage) : List (Stage × U) :=
  stages.filterMap fun stage =>
    ((p.slot stage).bind fun slot => (unitAt units slot).join).map fun unit => (stage, unit)

/-- If the units are found, then none is left out. -/
theorem stageUnits_ok {units : List (Option U)} {stages : List Stage} {found : List (Stage × U)}
    (h : p.stageUnits units stages = .ok found) :
    found = p.foundUnits units stages ∧ found.map Prod.fst = stages.filter p.isPopulated := by
  induction stages generalizing found with
  | nil =>
    cases h
    exact ⟨rfl, rfl⟩
  | cons stage rest ih =>
    unfold foundUnits
    rw [List.filterMap_cons]
    rcases p.stageUnits_cases units stage rest with ⟨hslot, hnext⟩ | ⟨slot, hslot, hfound⟩
    · have hp : ¬p.isPopulated stage = true := Bool.eq_false_iff.mp (slot_eq_none.mp hslot)
      rw [List.filter_cons_of_neg hp, hslot]
      exact ih (hnext.symm.trans h)
    · obtain ⟨rfl, hp⟩ := slot_eq_some.mp hslot
      have hp : p.isPopulated stage = true := hp
      rcases hfound with ⟨unit, hunit, hnext⟩ | ⟨-, hnext⟩ | ⟨-, hnext⟩
      · rw [hnext] at h
        cases hrest : p.stageUnits units rest with
        | error faults =>
          rw [hrest] at h
          contradiction
        | ok more =>
          rw [hrest] at h
          cases h
          obtain ⟨hfound, hstages⟩ := ih hrest
          rw [List.filter_cons_of_pos hp, List.map_cons, hstages, hslot]
          simp only [Option.bind_some, hunit, Option.join_some, Option.map_some, and_true]
          exact congrArg (List.cons _) hfound
      · rw [hnext] at h
        contradiction
      · rw [hnext] at h
        contradiction

/-- A search for units that succeeds has found one for each populated stage. -/
theorem unitAt_of_stageUnits {units : List (Option U)} {stages : List Stage}
    {found : List (Stage × U)} (h : p.stageUnits units stages = .ok found) {stage : Stage}
    (hstage : stage ∈ stages) {slot : StageSlot} (hslot : p.slot stage = some slot) :
    ∃ unit, unitAt units slot = some (some unit) := by
  induction stages generalizing found with
  | nil => exact absurd hstage List.not_mem_nil
  | cons first rest ih =>
    rcases p.stageUnits_cases units first rest with ⟨hnone, hnext⟩ | ⟨slot', hslot', hfound⟩
    · rcases List.mem_cons.mp hstage with rfl | hstage
      · rw [hslot] at hnone
        contradiction
      · exact ih (hnext.symm.trans h) hstage
    · rcases hfound with ⟨unit, hunit, hnext⟩ | ⟨-, hnext⟩ | ⟨-, hnext⟩
      · rcases List.mem_cons.mp hstage with rfl | hstage
        · rw [hslot] at hslot'
          cases hslot'
          exact ⟨unit, hunit⟩
        · rw [hnext] at h
          cases hrest : p.stageUnits units rest with
          | error faults =>
            rw [hrest] at h
            contradiction
          | ok more => exact ih hrest hstage
      · rw [hnext] at h
        contradiction
      · rw [hnext] at h
        contradiction

/-- What has been done when the stages in `done` were to get their binaries. -/
structure Translating (binary : Stage → Except String (List UInt32)) (p : Program)
    (done : List Stage) (r : BackendLinked) : Prop where
  frame : r.program = { p with slots := r.program.slots }
  codes : ∀ d ∈ r.diagnostics, d.code = .binaryFailure
  errors : ∀ d ∈ r.diagnostics, d.isError = true
  status : r.ok = r.diagnostics.isEmpty
  translated : r.ok = true → ∀ stage ∈ done, ∀ slot, p.slot stage = some slot →
    ∃ words, binary stage = .ok words ∧ r.program.slots.get stage = { slot with binary := words }
  untouched : ∀ stage, stage ∉ done ∨ p.slot stage = none →
    r.program.slots.get stage = p.slots.get stage

theorem Translating.step {binary : Stage → Except String (List UInt32)} {done : List Stage}
    {r : BackendLinked} {stage : Stage} (hr : p.Translating binary done r) (hstage : stage ∉ done) :
    p.Translating binary (stage :: done) (addBinary binary r stage) := by
  have hsame : r.program.slots.get stage = p.slots.get stage := hr.untouched stage (Or.inl hstage)
  have hslots : r.program.slot stage = p.slot stage := slot_congr hsame
  have hearlier (s : Stage) (hs : s ∉ stage :: done ∨ p.slot s = none) :
      s ∉ done ∨ p.slot s = none :=
    hs.imp_left fun hno hmem => hno (List.mem_cons_of_mem _ hmem)
  unfold addBinary
  rw [hslots]
  cases hslot : p.slot stage with
  | none =>
    refine ⟨hr.frame, hr.codes, hr.errors, hr.status, fun hok s hs slot hs' => ?_,
      fun s hs => hr.untouched s (hearlier s hs)⟩
    rcases List.mem_cons.mp hs with rfl | hs
    · rw [hslot] at hs'
      contradiction
    · exact hr.translated hok s hs slot hs'
  | some slot =>
    dsimp only
    cases hbinary : binary stage with
    | error log =>
      refine ⟨hr.frame, fun d hd => ?_, fun d hd => ?_, ?_,
        fun hok => absurd hok Bool.false_ne_true, fun s hs => hr.untouched s (hearlier s hs)⟩
      · rcases List.mem_append.mp hd with hd | hd
        · exact hr.codes d hd
        · rw [List.mem_singleton.mp hd]
          rfl
      · rcases List.mem_append.mp hd with hd | hd
        · exact hr.errors d hd
        · rw [List.mem_singleton.mp hd]
          rfl
      · refine (List.isEmpty_eq_false_iff.mpr ?_).symm
        exact List.append_ne_nil_of_right_ne_nil _ (List.cons_ne_nil _ _)
    | ok words =>
      refine ⟨congrArg (fun q : Program => q.setSlot stage _) hr.frame, hr.codes, hr.errors, hr.status,
        fun hok s hs slot' hs' => ?_, fun s hs => ?_⟩
      -- the new binary stands in its own slot, and the earlier ones where they were
      · by_cases heq : s = stage
        · subst heq
          rw [hslot] at hs'
          cases hs'
          exact ⟨words, hbinary, slots_setSlot_self _ _ _⟩
        · dsimp only
          rw [slots_setSlot_of_ne _ heq]
          exact hr.translated hok s ((List.mem_cons.mp hs).resolve_left heq) slot' hs'
      · have hne : s ≠ stage := by
          rintro rfl
          rcases hs with hs | hs
          · exact hs List.mem_cons_self
          · rw [hslot] at hs
            contradiction
        dsimp only
        rw [slots_setSlot_of_ne _ hne]
        exact hr.untouched s (hearlier s hs)

/-- All stages in turn, from a program with nothing reported about it. -/
theorem translating_all (p : Program) (binary : Stage → Except String (List UInt32))
    (calls : List ObjectCall) :
    p.Translating binary Stage.all.reverse (Stage.all.foldl (addBinary binary) ⟨p, [], true, calls⟩) := by
  have hstart : p.Translating binary [] ⟨p, [], true, calls⟩ :=
    ⟨rfl, fun _ hd => absurd hd List.not_mem_nil, fun _ hd => absurd hd List.not_mem_nil, rfl,
      fun _ _ hs => absurd hs List.not_mem_nil, fun _ _ => rfl⟩
  exact Stage.foldl_all hstart fun _ _ _ hstage hr => hr.step hstage

/-- What linking with reflection can come to: stages without units, a refusal of the backend, or a
program with its live data and, where they are asked for, its binaries. -/
theorem linkAndReflect_cases (p : Program) (backend : Backend U) (units : List (Option U))
    (binaries : Bool) :
    (∃ faults calls, p.stageUnits units Stage.all = .error faults ∧
      p.linkAndReflect backend units binaries = ⟨p, faults, false, calls⟩) ∨
    (∃ code message log calls, (code = .linkFailure ∨ code = .reflectionFailure) ∧
      p.linkAndReflect backend units binaries =
        ⟨p, [p.linkFault code message log], false, calls⟩) ∨
    (∃ found live calls, p.stageUnits units Stage.all = .ok found ∧
      backend.link p.name found = .ok () ∧ backend.reflect p.name found = .ok live ∧
      p.linkAndReflect backend units binaries =
        let reflected : BackendLinked :=
          ⟨{ p with reflection := p.reflection.addLive live }, [], true, calls⟩
        if binaries then Stage.all.foldl (addBinary (backend.binary p.name found)) reflected
        else reflected) := by
  unfold linkAndReflect
  cases hunits : p.stageUnits units Stage.all with
  | error faults => exact Or.inl ⟨faults, _, rfl, rfl⟩
  | ok found =>
    refine Or.inr ?_
    dsimp only
    cases hlink : backend.link p.name found with
    | error log => exact Or.inl ⟨_, _, log, _, Or.inl rfl, rfl⟩
    | ok _ =>
      dsimp only
      cases hreflect : backend.reflect p.name found with
      | error log => exact Or.inl ⟨_, _, log, _, Or.inr rfl, rfl⟩
      | ok live => exact Or.inr ⟨found, live, _, rfl, hlink, hreflect, rfl⟩

/-- What a target does with a program: it is linked with reflection, or left as it is with at most a
warning. -/
theorem linkWith_cases (p : Program) (backend : Backend U) (units : List (Option U))
    (header : Header) :
    ((Strategy.ofHeader header).needsUnits = true ∧ ∃ binaries,
      p.linkWith backend units header = p.linkAndReflect backend units binaries) ∨
    ((Strategy.ofHeader header).needsUnits = false ∧ ∃ warnings,
      (∀ d ∈ warnings, d.isError = false) ∧
      p.linkWith backend units header = ⟨p, warnings, true, []⟩) := by
  unfold linkWith
  cases Strategy.ofHeader header with
  | portable => exact Or.inl ⟨rfl, true, rfl⟩
  | reflect => exact Or.inl ⟨rfl, false, rfl⟩
  | stub => exact Or.inr ⟨rfl, [], fun _ hd => absurd hd List.not_mem_nil, rfl⟩
  | unsupported => exact Or.inr ⟨rfl, _, List.forall_mem_singleton.mpr rfl, rfl⟩

end Program

/-- The offset of a uniform under its name without index, if the uniform is data in a block. -/
def LiveUniform.dataOffset? (u : LiveUniform) : Option (String × UInt32) :=
  if u.type < resourceTypes then u.offset.map fun offset => (stripIndex u.name, offset) else none

/-- What a program records of a live set: everything in the order of the backend, and the offsets by
name. -/
def Reflection.ofLive (live : LiveSet) : Reflection :=
  ⟨live.blocks, live.uniforms.map (·.name), .ofList (live.uniforms.filterMap (·.dataOffset?))⟩

/-- Every uniform is added to what the earlier ones have left. -/
theorem Reflection.foldl_addUniform (uniforms : List LiveUniform) (r : Reflection) :
    uniforms.foldl addUniform r =
      { r with
        uniforms := r.uniforms ++ uniforms.map (·.name)
        offsets := (uniforms.filterMap (·.dataOffset?)).foldl (fun m b => m.insert b.1 b.2)
          r.offsets } := by
  induction uniforms generalizing r with
  | nil =>
    rw [List.map_nil, List.append_nil]
    rfl
  | cons u uniforms ih =>
    have hoffsets : (r.addUniform u).offsets =
        u.dataOffset?.toList.foldl (fun m b => m.insert b.1 b.2) r.offsets := by
      unfold addUniform LiveUniform.dataOffset?
      cases u.offset with
      | none =>
        dsimp only
        split <;> rfl
      | some offset =>
        dsimp only
        split <;> rfl
    have hfilter : u.dataOffset?.toList ++ uniforms.filterMap (·.dataOffset?) =
        (u :: uniforms).filterMap (·.dataOffset?) := by
      rw [List.filterMap_cons]
      cases u.dataOffset? <;> rfl
    have hnames : (r.addUniform u).uniforms ++ uniforms.map (·.name) =
        r.uniforms ++ (u :: uniforms).map (·.name) := List.append_assoc r.uniforms [u.name] _
    rw [List.foldl_cons, ih, hoffsets, hnames, ← List.foldl_append, hfilter]
    rfl

theorem Reflection.addLive_empty (live : LiveSet) : Reflection.empty.addLive live = .ofLive live :=
  foldl_addUniform live.uniforms { Reflection.empty with blocks := [] ++ live.blocks }

/-- What a backend gives a program for its units, with each strategy: the live set, and a binary for
each stage where the target asks for binaries. -/
inductive Backend.Produces {U : Type} (backend : Backend U) (subject : String)
    (units : List (Stage × U)) : Strategy → LiveSet → (Stage → List UInt32) → Prop
  | portable {live : LiveSet} {binary : Stage → List UInt32}
    (hlink : backend.link subject units = .ok ())
    (hreflect : backend.reflect subject units = .ok live)
    (hbinary : ∀ stage ∈ units.map Prod.fst,
      backend.binary subject units stage = .ok (binary stage)) :
    Produces backend subject units .portable live binary
  | reflect {live : LiveSet} (hlink : backend.link subject units = .ok ())
    (hreflect : backend.reflect subject units = .ok live) :
    Produces backend subject units .reflect live fun _ => []
  | stub : Produces backend subject units .stub ⟨[], []⟩ fun _ => []
  | unsupported : Produces backend subject units .unsupported ⟨[], []⟩ fun _ => []

/-- The units matter to the strategies that link them. -/
theorem Backend.Produces.congr_units {U : Type} {backend : Backend U} {subject : String}
    {units units' : List (Stage × U)} {strategy : Strategy} {live : LiveSet}
    {binary : Stage → List UInt32} (h : backend.Produces subject units strategy live binary)
    (hunits : strategy.needsUnits = true → units = units') :
    backend.Produces subject units' strategy live binary := by
  cases h with
  | portable hlink hreflect hbinary =>
    cases hunits rfl
    exact .portable hlink hreflect hbinary
  | reflect hlink hreflect =>
    cases hunits rfl
    exact .reflect hlink hreflect
  | stub => exact .stub
  | unsupported => exact .unsupported

namespace Program

variable {U : Type} {p : Program}

/-- A program after linking: what is live, and the binaries in their slots. -/
structure Completed (p q : Program) (live : LiveSet) (binary : Stage → List UInt32) : Prop where
  frame : q = { p with slots := q.slots, reflection := .ofLive live }
  slots : ∀ stage, q.slots.get stage = { p.slots.get stage with binary := binary stage }
  vacant : ∀ stage, p.isPopulated stage = false → binary stage = []

/-- Before linking there are no binaries and nothing is known to be live. -/
structure Unlinked (p : Program) : Prop where
  reflection : p.reflection = .empty
  binaries : ∀ stage, (p.slots.get stage).binary = []

/-- Without binaries the slots stay as they are. -/
theorem Unlinked.completed (h : p.Unlinked) (live : LiveSet) :
    p.Completed { p with reflection := p.reflection.addLive live } live fun _ => [] := by
  refine ⟨?_, fun stage => ?_, fun _ _ => rfl⟩
  · rw [h.reflection, Reflection.addLive_empty]
  · rw [← h.binaries stage]

/-- With binaries each populated stage has its own, if none of them failed. -/
theorem Unlinked.translated (h : p.Unlinked) {binary : Stage → Except String (List UInt32)}
    {live : LiveSet} {r : BackendLinked}
    (hr : ({ p with reflection := p.reflection.addLive live } : Program).Translating binary
      Stage.all.reverse r) (hok : r.ok = true) :
    (∀ stage, p.isPopulated stage = true →
      binary stage = .ok (r.program.slots.get stage).binary) ∧
    p.Completed r.program live fun stage => (r.program.slots.get stage).binary := by
  have hslot (stage : Stage) (hp : p.isPopulated stage = true) : ∃ words,
      binary stage = .ok words ∧
        r.program.slots.get stage = { p.slots.get stage with binary := words } :=
    hr.translated hok stage (List.mem_reverse.mpr stage.mem_all) _ (slot_eq_some.mpr ⟨rfl, hp⟩)
  have hvacant (stage : Stage) (hp : p.isPopulated stage = false) :
      r.program.slots.get stage = p.slots.get stage :=
    hr.untouched stage (Or.inr (slot_eq_none.mpr hp))
  refine ⟨fun stage hp => ?_, ?_, fun stage => ?_, fun stage hp => ?_⟩
  · obtain ⟨words, hwords, hget⟩ := hslot stage hp
    rw [hwords, hget]
  · rw [hr.frame, h.reflection, Reflection.addLive_empty]
  · by_cases hp : p.isPopulated stage = true
    · obtain ⟨words, -, hget⟩ := hslot stage hp
      rw [hget]
    · rw [hvacant stage (Bool.eq_false_iff.mpr hp)]
  · rw [hvacant stage hp]
    exact h.binaries stage

/-- Only the last outcome is a success. -/
theorem linkAndReflect_of_ok {backend : Backend U} {units : List (Option U)} {binaries : Bool}
    (hok : (p.linkAndReflect backend units binaries).ok = true) :
    ∃ found live calls, p.stageUnits units Stage.all = .ok found ∧
      backend.link p.name found = .ok () ∧ backend.reflect p.name found = .ok live ∧
      p.linkAndReflect backend units binaries =
        let reflected : BackendLinked :=
          ⟨{ p with reflection := p.reflection.addLive live }, [], true, calls⟩
        if binaries then Stage.all.foldl (addBinary (backend.binary p.name found)) reflected
        else reflected := by
  rcases p.linkAndReflect_cases backend units binaries with
    ⟨faults, calls, -, hr⟩ | ⟨code, message, log, calls, -, hr⟩ | hdone
  · rw [hr] at hok
    contradiction
  · rw [hr] at hok
    contradiction
  · exact hdone

theorem linkAndReflect_ok {backend : Backend U} {units : List (Option U)} {binaries : Bool}
    (h : p.Unlinked) (hok : (p.linkAndReflect backend units binaries).ok = true) :
    ∃ live binary,
      backend.Produces p.name (p.foundUnits units Stage.all)
        (if binaries then .portable else .reflect) live binary ∧
      p.Completed (p.linkAndReflect backend units binaries).program live binary ∧
      (p.foundUnits units Stage.all).map Prod.fst = p.populated := by
  obtain ⟨found, live, calls, hunits, hlink, hreflect, hr⟩ := linkAndReflect_of_ok hok
  obtain ⟨hfound, hstages⟩ := stageUnits_ok hunits
  rw [hr] at hok ⊢
  rw [← hfound]
  cases binaries with
  | false => exact ⟨live, _, .reflect hlink hreflect, h.completed live, hstages⟩
  | true =>
    rw [if_pos rfl] at hok ⊢
    obtain ⟨hbinary, hcompleted⟩ :=
      h.translated (translating_all _ (backend.binary p.name found) calls) hok
    refine ⟨live, _, .portable hlink hreflect fun stage hstage => ?_, hcompleted, hstages⟩
    rw [hstages] at hstage
    exact hbinary stage (List.mem_filter.mp hstage).2

/-- What is live is recorded once the backend has linked and reflected, whatever becomes of the
binaries. -/
theorem reflection_of_live {backend : Backend U} {units : List (Option U)} {found : List (Stage × U)}
    {live : LiveSet} (hunits : p.stageUnits units Stage.all = .ok found)
    (hlink : backend.link p.name found = .ok ()) (hreflect : backend.reflect p.name found = .ok live)
    (binaries : Bool) :
    (p.linkAndReflect backend units binaries).program.reflection = p.reflection.addLive live := by
  unfold linkAndReflect
  rw [hunits]
  dsimp only
  rw [hlink]
  dsimp only
  rw [hreflect]
  cases binaries with
  | false => rfl
  | true =>
    -- binaries go into the slots and leave the rest
    dsimp only
    rw [if_pos rfl, (translating_all _ (backend.binary p.name found) _).frame]

theorem linkAndReflect_reflection {backend : Backend U} {units : List (Option U)} {binaries : Bool}
    (hok : (p.linkAndReflect backend units binaries).ok = true) :
    ∃ live, backend.reflect p.name (p.foundUnits units Stage.all) = .ok live ∧
      (p.linkAndReflect backend units binaries).program.reflection = p.reflection.addLive live := by
  obtain ⟨found, live, calls, hunits, hlink, hreflect, -⟩ := linkAndReflect_of_ok hok
  have hlive := reflection_of_live hunits hlink hreflect binaries
  exact ⟨live, (stageUnits_ok hunits).1 ▸ hreflect, hlive⟩

/-- Linking that succeeds adds what the backend has found to be live to what the program knew. -/
theorem linkWith_reflection {backend : Backend U} {units : List (Option U)} {header : Header}
    (hneeds : (Strategy.ofHeader header).needsUnits = true)
    (hok : (p.linkWith backend units header).ok = true) :
    ∃ live, backend.reflect p.name (p.foundUnits units Stage.all) = .ok live ∧
      (p.linkWith backend units header).program.reflection = p.reflection.addLive live := by
  rcases p.linkWith_cases backend units header with ⟨-, binaries, hr⟩ | ⟨hnone, -⟩
  · rw [hr] at hok ⊢
    exact linkAndReflect_reflection hok
  · rw [hnone] at hneeds
    contradiction

/-- Linking that succeeds has given the units of all populated stages to the backend, if the target
asks for any, and has put everything that the backend produced into the program. -/
theorem linkWith_ok {backend : Backend U} {units : List (Option U)} {header : Header}
    (h : p.Unlinked) (hok : (p.linkWith backend units header).ok = true) :
    ∃ live binary,
      backend.Produces p.name (p.foundUnits units Stage.all) (Strategy.ofHeader header) live
        binary ∧
      p.Completed (p.linkWith backend units header).program live binary ∧
      ((Strategy.ofHeader header).needsUnits = true →
        (p.foundUnits units Stage.all).map Prod.fst = p.populated) := by
  have hlive : p.reflection.addLive ⟨[], []⟩ = p.reflection := by
    rw [h.reflection]
    rfl
  have hnothing : p.Completed p ⟨[], []⟩ fun _ => [] := by
    have hcompleted := h.completed ⟨[], []⟩
    rw [hlive] at hcompleted
    exact hcompleted
  unfold linkWith at hok ⊢
  cases hstrategy : Strategy.ofHeader header with
  | portable =>
    rw [hstrategy] at hok
    obtain ⟨live, binary, hproduces, hcompleted, hstages⟩ := linkAndReflect_ok h hok
    exact ⟨live, binary, hproduces, hcompleted, fun _ => hstages⟩
  | reflect =>
    rw [hstrategy] at hok
    obtain ⟨live, binary, hproduces, hcompleted, hstages⟩ := linkAndReflect_ok h hok
    exact ⟨live, binary, hproduces, hcompleted, fun _ => hstages⟩
  | stub => exact ⟨_, _, .stub, hnothing, fun hneeds => absurd hneeds Bool.false_ne_true⟩
  | unsupported =>
    exact ⟨_, _, .unsupported, hnothing, fun hneeds => absurd hneeds Bool.false_ne_true⟩

end Program

end EffectLink
