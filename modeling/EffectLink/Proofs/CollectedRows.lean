import EffectLink.Program.Basic

namespace EffectLink

/-- The last row with a key, which is the one that counts. -/
def ProgramDecl.lastRow (decl : ProgramDecl) (key : String) : Option ProgramRow :=
  (decl.rows.filter (·.key == key)).getLast?

namespace Program

/-- What no row changes. -/
theorem kept_consume (p : Program) (row : ProgramRow) :
    (p.consume row).name = p.name ∧ (p.consume row).location = p.location ∧
    (p.consume row).patchSize = p.patchSize ∧ (p.consume row).reflection = p.reflection := by
  unfold consume
  split
  · exact ⟨rfl, rfl, rfl, rfl⟩
  · split
    · exact ⟨rfl, rfl, rfl, rfl⟩
    · split <;> exact ⟨rfl, rfl, rfl, rfl⟩

theorem kept_ofDecl (decl : ProgramDecl) :
    (ofDecl decl).name = decl.name ∧ (ofDecl decl).location = decl.location ∧
    (ofDecl decl).patchSize = 0 ∧ (ofDecl decl).reflection = .empty := by
  have h (rows : List ProgramRow) (p : Program) :
      (rows.foldl consume p).name = p.name ∧ (rows.foldl consume p).location = p.location ∧
      (rows.foldl consume p).patchSize = p.patchSize ∧
      (rows.foldl consume p).reflection = p.reflection := by
    induction rows generalizing p with
    | nil => exact ⟨rfl, rfl, rfl, rfl⟩
    | cons row rows ih =>
      obtain ⟨hname, hlocation, hsize, hlive⟩ := p.kept_consume row
      rw [List.foldl_cons, ← hname, ← hlocation, ← hsize, ← hlive]
      exact ih (p.consume row)
  exact h decl.rows (new decl.name decl.location)

theorem name_ofDecl (decl : ProgramDecl) : (ofDecl decl).name = decl.name := (kept_ofDecl decl).1

/-- Of several rows with one key the last decides, if each fills what the key stands for anew. -/
theorem foldl_consume_last {α : Type} (view : Program → α) (fill : α → ProgramRow → α) (key : String)
    (hconsume : ∀ p row, view (consume p row) =
      if row.key = key then fill (view p) row else view p)
    (hfill : ∀ a row later, fill (fill a row) later = fill a later)
    (rows : List ProgramRow) (p : Program) :
    view (rows.foldl consume p) =
      match (rows.filter (·.key == key)).getLast? with
      | some row => fill (view p) row
      | none => view p := by
  induction rows generalizing p with
  | nil => rfl
  | cons row rows ih =>
    rw [List.foldl_cons, ih, hconsume]
    by_cases hkey : row.key = key
    · have hfilter : (row :: rows).filter (·.key == key) = row :: rows.filter (·.key == key) :=
        List.filter_cons_of_pos (beq_iff_eq.mpr hkey)
      rw [if_pos hkey, hfilter, List.getLast?_cons]
      cases (rows.filter (·.key == key)).getLast? with
      | none => rfl
      | some later => exact hfill (view p) row later
    · have hfilter : (row :: rows).filter (·.key == key) = rows.filter (·.key == key) :=
        List.filter_cons_of_neg (fun h => hkey (beq_iff_eq.mp h))
      rw [if_neg hkey, hfilter]

/-- A row changes the slot of the stage that its key names, and no other slot. -/
theorem slots_consume (p : Program) (row : ProgramRow) (s : Stage) :
    (p.consume row).slots.get s =
      if row.key = s.rowKey then stageRow (p.slots.get s) row else p.slots.get s := by
  unfold consume
  cases hkey : Stage.ofRowKey? row.key with
  | none =>
    have hne : ¬row.key = s.rowKey := by
      intro h
      have hs := Stage.ofRowKey?_eq_some.mpr h.symm
      rw [hkey] at hs
      contradiction
    rw [if_neg hne]
    dsimp only
    split
    · rfl
    · split <;> rfl
  | some t =>
    have ht : t.rowKey = row.key := Stage.ofRowKey?_eq_some.mp hkey
    by_cases hst : s = t
    · subst hst
      rw [if_pos ht.symm]
      exact PerStage.get_set_self _ _ _
    · have hne : ¬row.key = s.rowKey := fun h => hst (Stage.rowKey_injective (h.symm.trans ht.symm))
      rw [if_neg hne]
      exact PerStage.get_set_of_ne _ hst _

/-- A stage of a collected program is filled by its last row. -/
theorem slots_ofDecl (decl : ProgramDecl) (s : Stage) :
    (ofDecl decl).slots.get s =
      match decl.lastRow s.rowKey with
      | some row => stageRow .vacant row
      | none => .vacant := by
  have hnew : (new decl.name decl.location).slots.get s = .vacant := PerStage.get_ofFn _ s
  have h := foldl_consume_last (·.slots.get s) stageRow s.rowKey
    (fun p row => slots_consume p row s) (fun _ _ _ => rfl) decl.rows (new decl.name decl.location)
  rw [hnew] at h
  exact h

theorem slot_ofDecl (decl : ProgramDecl) (s : Stage) :
    (ofDecl decl).slot s = (decl.lastRow s.rowKey).map (stageRow .vacant) := by
  have h := slots_ofDecl decl s
  cases hrow : decl.lastRow s.rowKey with
  | none =>
    rw [hrow] at h
    exact slot_eq_none.mpr (by rw [h]; rfl)
  | some row =>
    rw [hrow] at h
    exact slot_eq_some.mpr ⟨h, rfl⟩

theorem renderState_consume (p : Program) (row : ProgramRow) :
    (p.consume row).renderState =
      if row.key = "RenderState" then some ⟨row.value, row.location⟩ else p.renderState := by
  unfold consume
  cases hkey : Stage.ofRowKey? row.key with
  | some t =>
    -- the key of a stage is not that of the render state
    have hne : ¬row.key = "RenderState" := by
      rw [← Stage.ofRowKey?_eq_some.mp hkey]
      cases t <;> decide
    dsimp only
    rw [if_neg hne]
    rfl
  | none =>
    dsimp only
    split
    · rfl
    · split <;> rfl

/-- The render state of a collected program is that of its last row. -/
theorem renderState_ofDecl (decl : ProgramDecl) :
    (ofDecl decl).renderState =
      (decl.lastRow "RenderState").map fun row => ⟨row.value, row.location⟩ := by
  have h := foldl_consume_last (·.renderState) (fun _ row => some ⟨row.value, row.location⟩)
    "RenderState" renderState_consume (fun _ _ _ => rfl) decl.rows (new decl.name decl.location)
  change (decl.rows.foldl consume (new decl.name decl.location)).renderState = _
  rw [h, ProgramDecl.lastRow]
  cases (decl.rows.filter (·.key == "RenderState")).getLast? <;> rfl

theorem compileFlags_consume (p : Program) (row : ProgramRow) :
    (p.consume row).compileFlags =
      if row.key = "CompileFlags" then row.value else p.compileFlags := by
  unfold consume
  cases hkey : Stage.ofRowKey? row.key with
  | some t =>
    -- the key of a stage is not that of the flags
    have hne : ¬row.key = "CompileFlags" := by
      rw [← Stage.ofRowKey?_eq_some.mp hkey]
      cases t <;> decide
    dsimp only
    rw [if_neg hne]
    rfl
  | none =>
    dsimp only
    by_cases hstate : row.key = "RenderState"
    · have hne : ¬row.key = "CompileFlags" := by
        rw [hstate]
        decide
      rw [if_pos hstate, if_neg hne]
    · rw [if_neg hstate]
      split <;> rfl

/-- The compile flags of a collected program are those of its last row. -/
theorem compileFlags_ofDecl (decl : ProgramDecl) :
    (ofDecl decl).compileFlags = ((decl.lastRow "CompileFlags").map (·.value)).getD "" := by
  have h := foldl_consume_last (·.compileFlags) (fun _ row => row.value)
    "CompileFlags" compileFlags_consume (fun _ _ _ => rfl) decl.rows (new decl.name decl.location)
  change (decl.rows.foldl consume (new decl.name decl.location)).compileFlags = _
  rw [h, ProgramDecl.lastRow]
  cases (decl.rows.filter (·.key == "CompileFlags")).getLast? <;> rfl

/-- The keys that rows can have: one for each stage, and two for the program as a whole. -/
def knownKeys : List String := Stage.all.map Stage.rowKey ++ ["RenderState", "CompileFlags"]

theorem mem_knownKeys {key : String} :
    key ∈ knownKeys ↔
      (∃ s : Stage, s.rowKey = key) ∨ key = "RenderState" ∨ key = "CompileFlags" := by
  unfold knownKeys
  rw [List.mem_append, List.mem_map]
  refine or_congr ⟨?_, ?_⟩ (by simp)
  · rintro ⟨s, -, hs⟩
    exact ⟨s, hs⟩
  · rintro ⟨s, hs⟩
    exact ⟨s, s.mem_all, hs⟩

/-- A row with an unknown key is kept after those before it, and no other row is. -/
theorem invalidRows_consume (p : Program) (row : ProgramRow) :
    (p.consume row).invalidRows =
      if row.key ∈ knownKeys then p.invalidRows
      else p.invalidRows ++ [⟨row.key, row.location⟩] := by
  unfold consume
  cases hkey : Stage.ofRowKey? row.key with
  | some t =>
    have hknown : row.key ∈ knownKeys := mem_knownKeys.mpr (Or.inl ⟨t, Stage.ofRowKey?_eq_some.mp hkey⟩)
    rw [if_pos hknown]
    rfl
  | none =>
    have hstage : ¬∃ s : Stage, s.rowKey = row.key := by
      rintro ⟨s, hs⟩
      rw [Stage.ofRowKey?_eq_some.mpr hs] at hkey
      contradiction
    simp only [mem_knownKeys, hstage, false_or]
    by_cases hstate : row.key = "RenderState"
    · rw [if_pos hstate, if_pos (Or.inl hstate)]
    · by_cases hflags : row.key = "CompileFlags"
      · rw [if_neg hstate, if_pos hflags, if_pos (Or.inr hflags)]
      · rw [if_neg hstate, if_neg hflags, if_neg (not_or.mpr ⟨hstate, hflags⟩)]

/-- The rows with unknown keys, as they are reported. -/
def unknownRows (rows : List ProgramRow) : List InvalidRow :=
  (rows.filter (·.key ∉ knownKeys)).map fun row => ⟨row.key, row.location⟩

theorem invalidRows_ofDecl (decl : ProgramDecl) :
    (ofDecl decl).invalidRows = unknownRows decl.rows := by
  have hrun (rows : List ProgramRow) (p : Program) :
      (rows.foldl consume p).invalidRows = p.invalidRows ++ unknownRows rows := by
    induction rows generalizing p with
    | nil => exact (List.append_nil _).symm
    | cons row rows ih =>
      rw [List.foldl_cons, ih, invalidRows_consume]
      unfold unknownRows
      by_cases hknown : row.key ∈ knownKeys
      · simp [hknown]
      · simp [hknown]
  exact hrun decl.rows (new decl.name decl.location)

end Program

theorem ProgramDecl.isSome_lastRow (decl : ProgramDecl) (key : String) :
    (decl.lastRow key).isSome = decl.rows.any (·.key == key) := by
  unfold lastRow
  rw [Bool.eq_iff_iff, List.getLast?_isSome, List.any_eq_true]
  simp [List.filter_eq_nil_iff]

end EffectLink
