/-! A place in a tree is the list of the positions on the way down to it. A walk that goes depth
first meets the places in the order of these lists, so an order of visits can be stated without a
walk. -/

namespace EffectLink

variable {α β : Type}

/-- The list has exactly the values for which `holds`, in the order of their paths. -/
structure Lists (holds : List Nat → α → Prop) (entries : List (List Nat × α)) : Prop where
  sorted : entries.Pairwise fun a b => a.1 < b.1
  mem_iff : ∀ path value, (path, value) ∈ entries ↔ holds path value

/-- One of the items, which are numbered from `start` on, has the value; the path begins with the number
of the item. -/
def Among (holds : β → List Nat → α → Prop) (start : Nat) (items : List β) : List Nat → α → Prop
  | [], _ => False
  | position :: path, value =>
    start ≤ position ∧ ∃ item, items[position - start]? = some item ∧ holds item path value

theorem among_zero {holds : β → List Nat → α → Prop} {items : List β} {position : Nat}
    {path : List Nat} {value : α} :
    Among holds 0 items (position :: path) value ↔
      ∃ item, items[position]? = some item ∧ holds item path value := by
  simp [Among]

/-- What has the value is the first item or among the others. -/
theorem among_cons {holds : β → List Nat → α → Prop} {item : β} {items : List β} {start position : Nat}
    {path : List Nat} {value : α} :
    Among holds start (item :: items) (position :: path) value ↔
      (position = start ∧ holds item path value) ∨
        Among holds (start + 1) items (position :: path) value := by
  simp only [Among]
  by_cases hposition : position = start
  · subst hposition
    have hlater : ¬position + 1 ≤ position := by omega
    simp [hlater]
  · -- a later position is one further back in the longer list
    have hget (hle : start ≤ position) :
        (item :: items)[position - start]? = items[position - (start + 1)]? := by
      have hindex : position - start = (position - (start + 1)) + 1 := by omega
      rw [hindex, List.getElem?_cons_succ]
    constructor
    · intro h
      obtain ⟨hle, h⟩ := h
      rw [hget hle] at h
      right
      exact ⟨by omega, h⟩
    · intro h
      rcases h with h | ⟨hle, h⟩
      · exact absurd h.1 hposition
      · have hle : start ≤ position := by omega
        rw [hget hle]
        exact ⟨hle, h⟩

theorem lists_nil {holds : List Nat → α → Prop} (h : ∀ path value, ¬holds path value) :
    Lists holds [] := by
  refine ⟨List.Pairwise.nil, ?_⟩
  intro path value
  simp [h path value]

theorem lists_singleton {holds : List Nat → α → Prop} {path : List Nat} {value : α}
    (h : ∀ p v, holds p v ↔ p = path ∧ v = value) : Lists holds [(path, value)] := by
  refine ⟨List.pairwise_singleton _ _, ?_⟩
  intro p v
  rw [h, List.mem_singleton, Prod.mk.injEq]

theorem lists_among_nil {holds : β → List Nat → α → Prop} {start : Nat} :
    Lists (Among holds start []) [] := by
  apply lists_nil
  intro path value h
  cases path with
  | nil => exact h
  | cons position path => simp [Among] at h

theorem Lists.congr {holds holds' : List Nat → α → Prop} {entries : List (List Nat × α)}
    (h : Lists holds entries) (heq : ∀ path value, holds path value ↔ holds' path value) :
    Lists holds' entries := by
  refine ⟨h.sorted, ?_⟩
  intro path value
  rw [h.mem_iff, heq]

/-- There is only one such list. -/
theorem Lists.unique {holds : List Nat → α → Prop} {entries entries' : List (List Nat × α)}
    (h : Lists holds entries) (h' : Lists holds entries') : entries = entries' := by
  have hnodup {entries : List (List Nat × α)} (h : Lists holds entries) : entries.Nodup := by
    refine h.sorted.imp ?_
    intro a b hlt heq
    rw [heq] at hlt
    exact List.lt_irrefl _ hlt
  have hperm : entries.Perm entries' := by
    apply (List.perm_ext_iff_of_nodup (hnodup h) (hnodup h')).mpr
    intro entry
    rw [h.mem_iff entry.1 entry.2, h'.mem_iff entry.1 entry.2]
  refine List.Perm.eq_of_pairwise ?_ h.sorted h'.sorted hperm
  intro a b _ _ hab hba
  exact absurd hba (List.lt_asymm hab)

/-- Changing the values keeps the paths. -/
theorem Lists.map {holds : List Nat → α → Prop} {entries : List (List Nat × α)}
    (h : Lists holds entries) (f : α → β) :
    Lists (fun path value => ∃ a, holds path a ∧ value = f a)
      (entries.map fun entry => (entry.1, f entry.2)) := by
  refine ⟨?_, ?_⟩
  · apply List.pairwise_map.mpr
    exact h.sorted
  · intro path value
    rw [List.mem_map]
    constructor
    · intro hentry
      obtain ⟨⟨p, a⟩, hentry, heq⟩ := hentry
      cases heq
      exact ⟨a, (h.mem_iff p a).mp hentry, rfl⟩
    · intro hvalue
      obtain ⟨a, ha, heq⟩ := hvalue
      exact ⟨(path, a), (h.mem_iff path a).mpr ha, by rw [heq]⟩

/-- The values of a first item and of the items after it. -/
theorem Lists.cons {holds : β → List Nat → α → Prop} {item : β} {items : List β} {start : Nat}
    {first rest : List (List Nat × α)} (hfirst : Lists (holds item) first)
    (hrest : Lists (Among holds (start + 1) items) rest) :
    Lists (Among holds start (item :: items))
      (first.map (fun entry => (start :: entry.1, entry.2)) ++ rest) where
  sorted := by
    apply List.pairwise_append.mpr
    refine ⟨?_, hrest.sorted, ?_⟩
    · apply List.pairwise_map.mpr
      refine hfirst.sorted.imp ?_
      intro a b hlt
      exact List.cons_lt_cons_iff.mpr (.inr ⟨rfl, hlt⟩)
    · -- entries of the first item begin with `start`, later ones with a greater number
      intro a ha b hb
      obtain ⟨entry, -, heq⟩ := List.mem_map.mp ha
      subst heq
      obtain ⟨path, value⟩ := b
      have hamong := (hrest.mem_iff path value).mp hb
      cases path with
      | nil => exact absurd hamong id
      | cons position path =>
        apply List.cons_lt_cons_iff.mpr
        left
        have hle : start + 1 ≤ position := hamong.1
        omega
  mem_iff := by
    intro path value
    rw [List.mem_append, hrest.mem_iff]
    cases path with
    | nil => simp [Among]
    | cons position path =>
      have hmap : (position :: path, value) ∈ first.map (fun entry => (start :: entry.1, entry.2)) ↔
          position = start ∧ holds item path value := by
        rw [← hfirst.mem_iff]
        simp only [List.mem_map, Prod.mk.injEq, List.cons.injEq]
        constructor
        · intro h
          obtain ⟨entry, hentry, ⟨hstart, hpath⟩, hvalue⟩ := h
          rw [← hpath, ← hvalue]
          exact ⟨hstart.symm, hentry⟩
        · intro h
          exact ⟨(path, value), h.2, ⟨h.1.symm, rfl⟩, rfl⟩
      rw [hmap, among_cons]

end EffectLink
