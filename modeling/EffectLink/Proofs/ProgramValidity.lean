import EffectLink.Linker
import EffectLink.Proofs.CollectedRows
import EffectLink.Proofs.SymbolLookup

namespace EffectLink

namespace SymbolTable

variable {t t' t'' : SymbolTable} {n : String}

/-- A name resolves as a kind if it stands for a declaration that was made as that kind. -/
theorem resolveAs_eq_ok {α : Type} {kind : SymbolKind} {view : Symbol → Option α}
    {make : α → Symbol} (hview : ∀ s a, view s = some a ↔ s = make a) {a : α} :
    t.resolveAs kind view n = .ok a ↔ t.get? n = some (make a) := by
  unfold resolveAs
  cases t.get? n with
  | none => simp
  | some s =>
    rw [Option.some.injEq, ← hview]
    cases h : view s <;> simp [h]

theorem resolveFunction_eq_ok {f : Function} :
    t.resolveFunction n = .ok f ↔ t.get? n = some (.function f) :=
  resolveAs_eq_ok fun s _ => by cases s <;> simp [Symbol.function?]

theorem resolveSubroutine_eq_ok {r : Subroutine} :
    t.resolveSubroutine n = .ok r ↔ t.get? n = some (.subroutine r) :=
  resolveAs_eq_ok fun s _ => by cases s <;> simp [Symbol.subroutine?]

theorem resolveRenderState_eq_ok {r : RenderState} :
    t.resolveRenderState n = .ok r ↔ t.get? n = some (.renderState r) :=
  resolveAs_eq_ok fun s _ => by cases s <;> simp [Symbol.renderState?]

theorem resolveAggregate_eq_ok {s : Structure} :
    t.resolveAggregate n = .ok s ↔ t.get? n = some (.aggregate s) :=
  resolveAs_eq_ok fun s _ => by cases s <;> simp [Symbol.aggregate?]

/-- `t'` answers as `t` does, except that it may know more programs. -/
def AddsPrograms (t t' : SymbolTable) : Prop :=
  ∀ n, t'.get? n = t.get? n ∨ t.get? n = none ∧ ∃ p, t'.get? n = some (.program p)

theorem AddsPrograms.refl (t : SymbolTable) : t.AddsPrograms t := fun _ => Or.inl rfl

theorem AddsPrograms.trans (h : t.AddsPrograms t') (h' : t'.AddsPrograms t'') :
    t.AddsPrograms t'' := by
  intro n
  rcases h n with h | ⟨hnone, hp⟩
  · rw [← h]
    exact h' n
  · rcases h' n with h' | ⟨hnone', hp'⟩
    · rw [h']
      exact Or.inr ⟨hnone, hp⟩
    · exact Or.inr ⟨hnone, hp'⟩

/-- What is answered once stays answered. -/
theorem AddsPrograms.get? (h : t.AddsPrograms t') {s : Symbol} (hs : t.get? n = some s) :
    t'.get? n = some s := by
  rcases h n with h | ⟨hnone, -⟩
  · rw [h, hs]
  · rw [hs] at hnone
    contradiction

theorem AddsPrograms.get?_iff (h : t.AddsPrograms t') {s : Symbol} (hk : s.kind ≠ .program) :
    t'.get? n = some s ↔ t.get? n = some s := by
  refine ⟨fun hs => ?_, h.get?⟩
  rcases h n with h | ⟨-, p, hp⟩
  · rw [← h, hs]
  · rw [hs] at hp
    cases hp
    exact absurd rfl hk

/-- Two tables that answer alike for everything but programs. -/
def Agrees (t t' : SymbolTable) : Prop :=
  ∀ n s, s.kind ≠ .program → (t.get? n = some s ↔ t'.get? n = some s)

theorem Agrees.function (h : t.Agrees t') {f : Function} :
    t.get? n = some (.function f) ↔ t'.get? n = some (.function f) :=
  h n _ fun hk => SymbolKind.noConfusion hk

theorem AddsPrograms.agrees {base : SymbolTable} (h : base.AddsPrograms t)
    (h' : base.AddsPrograms t') : t.Agrees t' := by
  intro n s hk
  rw [h.get?_iff hk, h'.get?_iff hk]

end SymbolTable

namespace Program

variable {t t' : SymbolTable} {p : Program}

theorem interfaceFaults_eq_nil {l : Location} {n : String} :
    interfaceFaults t l n = [] ↔ ∃ v, t.get? n = some (.global v) ∧ v.isPrototype = true := by
  unfold interfaceFaults
  cases t.get? n with
  | none => simp
  | some s =>
    cases s with
    | global v => cases h : v.isPrototype <;> simp [h]
    | _ => simp

theorem implementationFaults_eq_nil {l : Location} {n : String} :
    implementationFaults t l n = [] ↔
      ∃ r, t.get? n = some (.subroutine r) ∧ r.kind = .implementation := by
  unfold implementationFaults
  simp only [← SymbolTable.resolveSubroutine_eq_ok]
  cases t.resolveSubroutine n with
  | ok r => by_cases hk : r.kind = .implementation <;> simp [hk]
  | error e => cases e <;> simp

theorem renderStateFaults_eq_nil :
    p.renderStateFaults t = [] ↔
      ∃ row r, p.renderState = some row ∧ t.get? row.name = some (.renderState r) := by
  unfold renderStateFaults
  simp only [← SymbolTable.resolveRenderState_eq_ok]
  cases p.renderState with
  | none => simp
  | some row =>
    cases h : t.resolveRenderState row.name with
    | ok r => simp [h]
    | error e => cases e <;> simp [h]

theorem stageFunction_eq_ok {stage : Stage} {slot : StageSlot} {f : Function} :
    stageFunction t stage slot = .ok f ↔
      t.get? slot.function = some (.function f) ∧ f.isShader = true := by
  unfold stageFunction
  rw [← SymbolTable.resolveFunction_eq_ok]
  cases t.resolveFunction slot.function with
  | ok g => by_cases hg : g.isShader <;> grind
  | error e => cases e <;> simp

theorem bindingFaults_eq_nil :
    p.bindingFaults t = [] ↔ ∀ stage slot, p.slot stage = some slot →
      ∀ b ∈ slot.bindings.entries,
        interfaceFaults t slot.location b.1 = [] ∧ implementationFaults t slot.location b.2 = [] := by
  unfold bindingFaults PerStage.toList stages
  simp only [List.flatMap_eq_nil_iff, List.forall_mem_map, PerStage.get_ofFn]
  constructor
  · intro h stage slot hslot b hb
    have hstage := h stage stage.mem_all
    rw [hslot] at hstage
    exact List.append_eq_nil_iff.mp (List.flatMap_eq_nil_iff.mp hstage b hb)
  · intro h stage _
    cases hslot : p.slot stage with
    | none => rfl
    | some slot =>
      refine List.flatMap_eq_nil_iff.mpr fun b hb => ?_
      exact List.append_eq_nil_iff.mpr (h stage slot hslot b hb)

theorem functionFaults_eq_nil :
    p.functionFaults t = [] ↔ ∀ stage slot, p.slot stage = some slot →
      ∃ f, t.get? slot.function = some (.function f) ∧ f.isShader = true := by
  unfold functionFaults
  rw [List.flatMap_eq_nil_iff]
  constructor
  · intro h stage slot hslot
    have hstage := h stage stage.mem_all
    simp only [hslot] at hstage
    cases hf : stageFunction t stage slot with
    | ok f => exact ⟨f, stageFunction_eq_ok.mp hf⟩
    | error fault =>
      rw [hf] at hstage
      contradiction
  · intro h stage _
    cases hslot : p.slot stage with
    | none => rfl
    | some slot =>
      obtain ⟨f, hf⟩ := h stage slot hslot
      dsimp only
      rw [stageFunction_eq_ok.mpr hf]

/-- The shader functions of a program do not depend on the programs in the table. -/
theorem functions_congr (h : t.Agrees t') : p.functions t = p.functions t' := by
  have hstage (stage : Stage) (slot : StageSlot) :
      (stageFunction t stage slot).toOption = (stageFunction t' stage slot).toOption := by
    have hok (f : Function) : stageFunction t stage slot = .ok f ↔
        stageFunction t' stage slot = .ok f := by
      rw [stageFunction_eq_ok, stageFunction_eq_ok, h.function]
    cases hf : stageFunction t stage slot with
    | ok f => rw [(hok f).mp hf]
    | error e =>
      cases hf' : stageFunction t' stage slot with
      | ok f =>
        rw [(hok f).mpr hf'] at hf
        contradiction
      | error e' => rfl
  unfold functions
  congr 1
  funext stage
  cases p.slot stage with
  | none => rfl
  | some slot => exact hstage stage slot

/-- Everything that validation looks up. -/
structure Resolvable (t : SymbolTable) (p : Program) : Prop where
  functions : ∀ stage slot, p.slot stage = some slot →
    ∃ f, t.get? slot.function = some (.function f) ∧ f.isShader = true
  interfaces : ∀ stage slot, p.slot stage = some slot → ∀ b ∈ slot.bindings.entries,
    ∃ v, t.get? b.1 = some (.global v) ∧ v.isPrototype = true
  implementations : ∀ stage slot, p.slot stage = some slot → ∀ b ∈ slot.bindings.entries,
    ∃ r, t.get? b.2 = some (.subroutine r) ∧ r.kind = .implementation
  renderState : ∃ row r, p.renderState = some row ∧ t.get? row.name = some (.renderState r)

/-- What else validation looks at; the table enters only through the shader functions. -/
structure Fitting (options : LinkOptions) (functions : PerStage (Option Function)) (p : Program) :
    Prop where
  annotation : p.annotationFaults = []
  rows : p.rowFaults = []
  interfaces : options.interfaceValidation = true →
    p.pairFaults = [] ∧ patchFaults functions = [] ∧ p.chainFaults functions = []

theorem violations_eq_nil {options : LinkOptions} :
    p.violations t options = [] ↔ p.Resolvable t ∧ p.Fitting options (p.functions t) := by
  have hinterfaces (faults : List Diagnostic) :
      (if options.interfaceValidation then faults else []) = [] ↔
        (options.interfaceValidation = true → faults = []) := by
    cases options.interfaceValidation <;> simp
  simp only [violations, List.map_eq_nil_iff, List.append_eq_nil_iff, hinterfaces]
  constructor
  · rintro ⟨⟨⟨⟨⟨hkeys, hrows⟩, hbindings⟩, hstate⟩, hfunctions⟩, hpairs⟩
    have hbound := bindingFaults_eq_nil.mp hbindings
    refine ⟨⟨functionFaults_eq_nil.mp hfunctions, ?_, ?_, renderStateFaults_eq_nil.mp hstate⟩,
      ⟨hkeys, hrows, fun ho => and_assoc.mp (hpairs ho)⟩⟩
    · intro stage slot hslot b hb
      exact interfaceFaults_eq_nil.mp (hbound stage slot hslot b hb).1
    · intro stage slot hslot b hb
      exact implementationFaults_eq_nil.mp (hbound stage slot hslot b hb).2
  · rintro ⟨hr, hf⟩
    refine ⟨⟨⟨⟨⟨hf.annotation, hf.rows⟩, ?_⟩, renderStateFaults_eq_nil.mpr hr.renderState⟩,
      functionFaults_eq_nil.mpr hr.functions⟩, fun ho => and_assoc.mpr (hf.interfaces ho)⟩
    refine bindingFaults_eq_nil.mpr fun stage slot hslot b hb => ⟨?_, ?_⟩
    · exact interfaceFaults_eq_nil.mpr (hr.interfaces stage slot hslot b hb)
    · exact implementationFaults_eq_nil.mpr (hr.implementations stage slot hslot b hb)

theorem Resolvable.congr (h : t.Agrees t') (hp : p.Resolvable t) : p.Resolvable t' := by
  constructor
  · intro stage slot hslot
    obtain ⟨f, hf, hs⟩ := hp.functions stage slot hslot
    exact ⟨f, h.function.mp hf, hs⟩
  · intro stage slot hslot b hb
    obtain ⟨v, hv, hs⟩ := hp.interfaces stage slot hslot b hb
    exact ⟨v, (h _ _ (fun hk => SymbolKind.noConfusion hk)).mp hv, hs⟩
  · intro stage slot hslot b hb
    obtain ⟨r, hr, hs⟩ := hp.implementations stage slot hslot b hb
    exact ⟨r, (h _ _ (fun hk => SymbolKind.noConfusion hk)).mp hr, hs⟩
  · obtain ⟨row, r, hrow, hr⟩ := hp.renderState
    exact ⟨row, r, hrow, (h _ _ (fun hk => SymbolKind.noConfusion hk)).mp hr⟩

theorem violations_eq_nil_congr {options : LinkOptions} (h : t.Agrees t') :
    p.violations t options = [] ↔ p.violations t' options = [] := by
  have h' : t'.Agrees t := fun n s hk => (h n s hk).symm
  rw [violations_eq_nil, violations_eq_nil, functions_congr h]
  exact and_congr_left' ⟨Resolvable.congr h, Resolvable.congr h'⟩

end Program

end EffectLink
