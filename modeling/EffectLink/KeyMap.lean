namespace EffectLink

/-- A finite map from text, in increasing key order: maps with the same bindings are equal. -/
structure KeyMap (α : Type) where
  entries : List (String × α)
  ordered : entries.Pairwise fun a b => a.1 < b.1
  deriving DecidableEq

namespace KeyMap

variable {α : Type}

/-- Puts a binding in its place; a key that is there already keeps its place and changes its value. -/
def place (key : String) (value : α) : List (String × α) → List (String × α)
  | [] => [(key, value)]
  | (k, v) :: rest =>
    if key < k then (key, value) :: (k, v) :: rest
    else if k < key then (k, v) :: place key value rest
    else (k, value) :: rest

theorem key_of_mem_place {key : String} {value : α} {entries : List (String × α)}
    {e : String × α} (h : e ∈ place key value entries) :
    e.1 = key ∨ ∃ d ∈ entries, d.1 = e.1 := by
  induction entries with
  | nil =>
    simp only [place, List.mem_singleton] at h
    exact Or.inl (by rw [h])
  | cons d rest ih =>
    simp only [place] at h
    split at h
    · rcases List.mem_cons.1 h with rfl | h
      · exact Or.inl rfl
      · exact Or.inr ⟨e, h, rfl⟩
    · split at h
      · rcases List.mem_cons.1 h with rfl | h
        · exact Or.inr ⟨_, List.mem_cons_self, rfl⟩
        · rcases ih h with h | ⟨c, hc, he⟩
          · exact Or.inl h
          · exact Or.inr ⟨c, List.mem_cons_of_mem _ hc, he⟩
      · rcases List.mem_cons.1 h with rfl | h
        · exact Or.inr ⟨d, List.mem_cons_self, rfl⟩
        · exact Or.inr ⟨e, List.mem_cons_of_mem _ h, rfl⟩

theorem place_ordered {key : String} {value : α} {entries : List (String × α)}
    (h : entries.Pairwise fun a b => a.1 < b.1) :
    (place key value entries).Pairwise fun a b => a.1 < b.1 := by
  induction entries with
  | nil => exact List.pairwise_singleton _ _
  | cons d rest ih =>
    obtain ⟨hd, hrest⟩ := List.pairwise_cons.1 h
    simp only [place]
    split
    · next hlt =>
      refine List.pairwise_cons.2 ⟨?_, h⟩
      intro b hb
      rcases List.mem_cons.1 hb with rfl | hb
      · exact hlt
      · exact String.lt_trans hlt (hd b hb)
    · split
      · next hlt =>
        refine List.pairwise_cons.2 ⟨?_, ih hrest⟩
        intro b hb
        rcases key_of_mem_place hb with hk | ⟨c, hc, he⟩
        · exact hk ▸ hlt
        · exact he ▸ hd c hc
      · exact List.pairwise_cons.2 ⟨hd, hrest⟩

/-- Maps with the same entries are equal. -/
@[ext]
theorem ext_entries {m m' : KeyMap α} (h : m.entries = m'.entries) : m = m' := by
  cases m
  cases m'
  cases h
  rfl

def empty : KeyMap α := ⟨[], List.Pairwise.nil⟩

instance : EmptyCollection (KeyMap α) := ⟨empty⟩

instance : Inhabited (KeyMap α) := ⟨empty⟩

def insert (m : KeyMap α) (key : String) (value : α) : KeyMap α :=
  ⟨place key value m.entries, place_ordered m.ordered⟩

/-- The last binding of a repeated key wins. -/
def ofList (bindings : List (String × α)) : KeyMap α :=
  bindings.foldl (fun m b => m.insert b.1 b.2) empty

def get? (m : KeyMap α) (key : String) : Option α := m.entries.lookup key

def isEmpty (m : KeyMap α) : Bool := m.entries.isEmpty

theorem lookup_place (key : String) (value : α) (entries : List (String × α)) (k : String) :
    (place key value entries).lookup k = if k = key then some value else entries.lookup k := by
  have hcons (first : String) (v : α) (rest : List (String × α)) :
      ((first, v) :: rest).lookup k = if k = first then some v else rest.lookup k := by
    by_cases hk : k = first <;> simp [List.lookup_cons, hk, beq_false_of_ne]
  induction entries with
  | nil => exact hcons key value []
  | cons e rest ih =>
    obtain ⟨first, v⟩ := e
    simp only [place]
    split
    · exact hcons key value _
    · next hfirst =>
      split
      · next hlt =>
        have hne : first ≠ key := fun he => String.lt_irrefl key (he ▸ hlt)
        rw [hcons, hcons, ih]
        by_cases hk : k = first
        · rw [if_pos hk, if_neg (hk ▸ hne), if_pos hk]
        · rw [if_neg hk, if_neg hk]
      · next hlast =>
        have he : first = key := String.le_antisymm (String.not_lt.mp hfirst) (String.not_lt.mp hlast)
        rw [hcons, hcons, he]
        by_cases hk : k = key
        · rw [if_pos hk, if_pos hk]
        · rw [if_neg hk, if_neg hk, if_neg hk]

/-- An insertion answers for its own key only. -/
theorem get?_insert (m : KeyMap α) (key : String) (value : α) (k : String) :
    (m.insert key value).get? k = if k = key then some value else m.get? k :=
  lookup_place key value m.entries k

/-- The keys after a run of insertions: those of the bindings, and those that were there. -/
theorem isSome_get?_foldl_insert (bindings : List (String × α)) (m : KeyMap α) (k : String) :
    ((bindings.foldl (fun m b => m.insert b.1 b.2) m).get? k).isSome = true ↔
      (m.get? k).isSome = true ∨ ∃ b ∈ bindings, b.1 = k := by
  induction bindings generalizing m with
  | nil => simp
  | cons b bindings ih =>
    rw [List.foldl_cons, ih, get?_insert]
    by_cases hk : k = b.1
    · simp [hk]
    · simp [hk, Ne.symm hk]

end KeyMap

end EffectLink
