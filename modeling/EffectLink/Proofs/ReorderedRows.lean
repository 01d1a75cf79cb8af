import Mathlib.Data.List.FinRange
import Mathlib.Data.List.Sort
import EffectLink.Proofs.CollectedRows

namespace EffectLink

/-- Two rows whose order matters: they have one key, or neither key is known. -/
def ProgramRow.Tied (a b : ProgramRow) : Prop :=
  a.key = b.key ∨ a.key ∉ Program.knownKeys ∧ b.key ∉ Program.knownKeys

instance (a b : ProgramRow) : Decidable (a.Tied b) := inferInstanceAs (Decidable (_ ∨ _ ∧ _))

namespace ProgramDecl

/-- The declaration with the row at place `order i` moved to place `i`. -/
def reordered (decl : ProgramDecl) (order : Equiv.Perm (Fin decl.rows.length)) : ProgramDecl :=
  { decl with rows := List.ofFn fun i => decl.rows.get (order i) }

/-- Rows whose order matters keep it. -/
def KeepsOrder (decl : ProgramDecl) (order : Equiv.Perm (Fin decl.rows.length)) : Prop :=
  ∀ i j, i < j → (decl.rows.get (order i)).Tied (decl.rows.get (order j)) → order i < order j

instance (decl : ProgramDecl) (order : Equiv.Perm (Fin decl.rows.length)) :
    Decidable (decl.KeepsOrder order) :=
  inferInstanceAs (Decidable (∀ _ _, _ → _ → _))

end ProgramDecl

/-- The rows of a class whose members keep their order are the same rows in the same order. -/
theorem filter_reordered {rows : List ProgramRow} {order : Equiv.Perm (Fin rows.length)}
    {among : ProgramRow → Bool}
    (h : ∀ i j, i < j → among (rows.get (order i)) = true → among (rows.get (order j)) = true →
      order i < order j) :
    (List.ofFn fun i => rows.get (order i)).filter among = rows.filter among := by
  let places := List.finRange rows.length
  let chosen : Fin rows.length → Bool := fun i => among (rows.get i)
  -- both sides read the rows at increasing places, and the places are the same
  have hplaces : (places.map order).filter chosen = places.filter chosen := by
    have hincreasing : places.Pairwise (· < ·) := List.pairwise_lt_finRange _
    have hmoved : ((places.map order).filter chosen).Pairwise (· < ·) := by
      rw [List.pairwise_filter, List.pairwise_map]
      exact hincreasing.imp fun hij hi hj => h _ _ hij hi hj
    apply List.Perm.eq_of_pairwise' hmoved (hincreasing.filter chosen)
    exact (order.map_finRange_perm).filter chosen
  calc (List.ofFn fun i => rows.get (order i)).filter among
      = (((places.map order).map rows.get).filter among) := by
        rw [List.ofFn_eq_map, List.map_map]
        rfl
    _ = ((places.map order).filter chosen).map rows.get := by
        rw [List.filter_map]
        rfl
    _ = (places.filter chosen).map rows.get := by rw [hplaces]
    _ = (places.map rows.get).filter among := by
        rw [List.filter_map]
        rfl
    _ = rows.filter among := by
        rw [← List.ofFn_eq_map, List.ofFn_get]

theorem ProgramDecl.lastRow_reordered {decl : ProgramDecl}
    {order : Equiv.Perm (Fin decl.rows.length)} (h : decl.KeepsOrder order) (key : String) :
    (decl.reordered order).lastRow key = decl.lastRow key := by
  apply congrArg List.getLast?
  apply filter_reordered
  intro i j hij hi hj
  exact h i j hij (Or.inl ((beq_iff_eq.mp hi).trans (beq_iff_eq.mp hj).symm))

namespace Program

theorem unknownRows_reordered {decl : ProgramDecl} {order : Equiv.Perm (Fin decl.rows.length)}
    (h : decl.KeepsOrder order) : unknownRows (decl.reordered order).rows = unknownRows decl.rows := by
  apply congrArg (List.map _)
  apply filter_reordered
  intro i j hij hi hj
  exact h i j hij (Or.inr ⟨of_decide_eq_true hi, of_decide_eq_true hj⟩)

/-- What a stage holds whose last row this is. -/
def slotOfRow (row : ProgramRow) : StageSlot :=
  { populated := true
    function := row.value
    shaderName := row.value
    bindings := row.bindings
    location := row.location
    shader := none
    binary := [] }

/-- A collected program, part by part: the last row of each key, and the unknown rows in order. -/
theorem ofDecl_eq (decl : ProgramDecl) :
    ofDecl decl =
      { name := decl.name
        location := decl.location
        slots := .ofFn fun stage => ((decl.lastRow stage.rowKey).map slotOfRow).getD .vacant
        renderState := (decl.lastRow "RenderState").map fun row => ⟨row.value, row.location⟩
        compileFlags := ((decl.lastRow "CompileFlags").map (·.value)).getD ""
        invalidRows := unknownRows decl.rows
        annotation := decl.annotation
        patchSize := 0
        reflection := .empty } := by
  obtain ⟨hname, hlocation, hsize, hlive⟩ := kept_ofDecl decl
  have hslots : (ofDecl decl).slots =
      .ofFn fun stage => ((decl.lastRow stage.rowKey).map slotOfRow).getD .vacant := by
    ext stage
    rw [PerStage.get_ofFn, slots_ofDecl]
    cases decl.lastRow stage.rowKey <;> rfl
  rw [← hname, ← hlocation, ← hsize, ← hlive, ← hslots, ← renderState_ofDecl, ← compileFlags_ofDecl,
    ← invalidRows_ofDecl]
  rfl

/-- Rows with different keys commute, and rows with unknown keys commute with all that have a known one.
What each key stands for is given by its last row alone, and the rows with unknown keys are kept in
order. -/
theorem ofDecl_exact (decl : ProgramDecl) :
    (∀ order, decl.KeepsOrder order → ofDecl (decl.reordered order) = ofDecl decl) ∧
    (∀ stage, (ofDecl decl).slots.get stage =
      ((decl.lastRow stage.rowKey).map slotOfRow).getD .vacant) ∧
    ((ofDecl decl).renderState =
        (decl.lastRow "RenderState").map fun row => ⟨row.value, row.location⟩) ∧
    (ofDecl decl).renderStateLocation =
      ((decl.lastRow "RenderState").map (·.location)).getD decl.location ∧
    (ofDecl decl).compileFlags = ((decl.lastRow "CompileFlags").map (·.value)).getD "" ∧
    (ofDecl decl).invalidRows =
      (decl.rows.filter (·.key ∉ knownKeys)).map fun row => ⟨row.key, row.location⟩ := by
  refine ⟨?_, ?_, renderState_ofDecl decl, ?_, compileFlags_ofDecl decl, invalidRows_ofDecl decl⟩
  · intro order hkeeps
    rw [ofDecl_eq, ofDecl_eq]
    simp only [ProgramDecl.lastRow_reordered hkeeps, unknownRows_reordered hkeeps]
    rfl
  · intro stage
    rw [ofDecl_eq]
    exact PerStage.get_ofFn _ stage
  · unfold renderStateLocation
    rw [renderState_ofDecl, (kept_ofDecl decl).2.1]
    cases decl.lastRow "RenderState" <;> rfl

def cliff (line : Nat) : Location := ⟨"cascade.fx", line⟩

/-- Two rows for the vertex stage, one of which has a binding, and two rows with unknown keys. -/
def cascade : ProgramDecl :=
  { name := "Cascade"
    location := cliff 1
    rows :=
      [⟨"VertexShader", "VSMist", .ofList [("flow", "slow")], cliff 2⟩,
       ⟨"Blend", "additive", ∅, cliff 3⟩,
       ⟨"RenderState", "Opaque", ∅, cliff 4⟩,
       ⟨"VertexShader", "VSWater", ∅, cliff 5⟩,
       ⟨"Depth", "less", ∅, cliff 6⟩,
       ⟨"CompileFlags", "-O", ∅, cliff 7⟩]
    annotation := none }

/-- The render state goes behind the vertex rows, and the flags in front of the last unknown row. -/
def cascadeOrder : Equiv.Perm (Fin cascade.rows.length) :=
  (Equiv.swap ⟨2, by decide⟩ ⟨3, by decide⟩).trans (Equiv.swap ⟨4, by decide⟩ ⟨5, by decide⟩)

/-- Nothing of the earlier vertex row is left, and the new order makes no difference. -/
theorem ofDecl_exact_cascade :
    cascade.KeepsOrder cascadeOrder ∧
    (cascade.reordered cascadeOrder).rows.map (·.location.line) = [2, 3, 5, 4, 7, 6] ∧
    ofDecl (cascade.reordered cascadeOrder) = ofDecl cascade ∧
    (ofDecl cascade).slots.get .vertex = ⟨true, "VSWater", "VSWater", ∅, cliff 5, none, []⟩ ∧
    (ofDecl cascade).renderStateLocation = cliff 4 ∧
    (ofDecl cascade).invalidRows = [⟨"Blend", cliff 3⟩, ⟨"Depth", cliff 6⟩] := by
  have hkeeps : cascade.KeepsOrder cascadeOrder := by decide
  obtain ⟨hcommute, hslots, -, hstate, -, hinvalid⟩ := ofDecl_exact cascade
  exact ⟨hkeeps, by decide, hcommute cascadeOrder hkeeps, hslots .vertex, hstate, hinvalid⟩

end Program

end EffectLink
