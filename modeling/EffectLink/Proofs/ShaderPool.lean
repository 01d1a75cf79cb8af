import EffectLink.Shader.Pool

namespace EffectLink

/-- Two shaders that the pool cannot tell apart. -/
def Shader.SameKey (a b : Shader) : Prop := a.stage = b.stage ∧ a.identity = b.identity

theorem Shader.hasKey_iff {a b : Shader} :
    a.hasKey b.stage b.identity = true ↔ a.SameKey b := by
  simp [Shader.hasKey, Shader.SameKey]

theorem Shader.hasKey_eq_true {s : Shader} {stage : Stage} {identity : String} :
    s.hasKey stage identity = true ↔ s.stage = stage ∧ s.identity = identity := by
  simp [Shader.hasKey]

namespace Pool

/-- `later` has everything that `pool` has, at the same ids. -/
def Extends (pool later : Pool) : Prop := pool.shaders <+: later.shaders

theorem Extends.refl (pool : Pool) : pool.Extends pool := List.prefix_rfl

theorem Extends.trans {a b c : Pool} (h : a.Extends b) (h' : b.Extends c) : a.Extends c :=
  List.IsPrefix.trans h h'

theorem Extends.get? {pool later : Pool} (h : pool.Extends later) {id : Nat} {s : Shader}
    (hs : pool.get? id = some s) : later.get? id = some s := by
  obtain ⟨rest, hrest⟩ := h
  have hlt : id < pool.shaders.length := (List.getElem?_eq_some_iff.mp hs).1
  rw [Pool.get?, ← hrest, List.getElem?_append_left hlt]
  exact hs

/-- No two shaders have the same key. -/
def Distinct (pool : Pool) : Prop := pool.shaders.Pairwise fun a b => ¬a.SameKey b

theorem distinct_empty : empty.Distinct := List.Pairwise.nil

/-- In a pool without repetition the key of a shader determines its id. -/
theorem Distinct.id_unique {pool : Pool} (h : pool.Distinct) {i j : Nat} {a b : Shader}
    (ha : pool.get? i = some a) (hb : pool.get? j = some b) (hab : a.SameKey b) : i = j := by
  obtain ⟨hi, rfl⟩ := List.getElem?_eq_some_iff.mp ha
  obtain ⟨hj, rfl⟩ := List.getElem?_eq_some_iff.mp hb
  have hpair := List.pairwise_iff_getElem.mp h
  rcases Nat.lt_trichotomy i j with hlt | heq | hgt
  · exact absurd hab (hpair i j hi hj hlt)
  · exact heq
  · exact absurd ⟨hab.1.symm, hab.2.symm⟩ (hpair j i hj hi hgt)

/-- In such a pool a shader is found by its key. -/
theorem Distinct.lookup_eq {pool : Pool} (h : pool.Distinct) {id : Nat} {s : Shader}
    (hs : pool.get? id = some s) : pool.lookup s.stage s.identity = some id := by
  unfold lookup
  cases hfound : pool.shaders.findIdx? (Shader.hasKey s.stage s.identity) with
  | none =>
    have hno := List.findIdx?_eq_none_iff.mp hfound s (List.mem_of_getElem? hs)
    rw [Shader.hasKey_iff.mpr ⟨rfl, rfl⟩] at hno
    contradiction
  | some other =>
    obtain ⟨hlt, hkey, -⟩ := List.findIdx?_eq_some_iff_getElem.mp hfound
    have hother : pool.get? other = some pool.shaders[other] := List.getElem?_eq_getElem hlt
    rw [h.id_unique hother hs (Shader.hasKey_iff.mp hkey)]

/-- What is found has the key that was looked up. -/
theorem get?_of_lookup {pool : Pool} {stage : Stage} {identity : String} {id : Nat}
    (h : pool.lookup stage identity = some id) :
    ∃ s, pool.get? id = some s ∧ s.stage = stage ∧ s.identity = identity := by
  obtain ⟨hid, hkey, -⟩ := List.findIdx?_eq_some_iff_getElem.mp h
  exact ⟨pool.shaders[id], List.getElem?_eq_getElem hid, Shader.hasKey_eq_true.mp hkey⟩

theorem Distinct.lookup_eq_some {pool : Pool} (h : pool.Distinct) {stage : Stage} {identity : String}
    {id : Nat} : pool.lookup stage identity = some id ↔
      ∃ s, pool.get? id = some s ∧ s.stage = stage ∧ s.identity = identity := by
  refine ⟨get?_of_lookup, ?_⟩
  rintro ⟨s, hs, rfl, rfl⟩
  exact h.lookup_eq hs

/-- Interning either finds a shader with the key and changes nothing, or appends the new one. -/
theorem intern_cases (pool : Pool) (s : Shader) :
    (∃ id found, pool.intern s = (pool, id) ∧ pool.get? id = some found ∧ found.SameKey s) ∨
    (pool.intern s = (⟨pool.shaders ++ [s]⟩, pool.size) ∧ ∀ a ∈ pool.shaders, ¬a.SameKey s) := by
  unfold intern lookup
  cases h : pool.shaders.findIdx? (Shader.hasKey s.stage s.identity) with
  | some id =>
    obtain ⟨hid, hkey, -⟩ := List.findIdx?_eq_some_iff_getElem.mp h
    exact Or.inl ⟨id, pool.shaders[id], rfl, List.getElem?_eq_getElem hid, Shader.hasKey_iff.mp hkey⟩
  | none =>
    refine Or.inr ⟨rfl, fun a ha hsame => ?_⟩
    have hno := List.findIdx?_eq_none_iff.mp h a ha
    rw [Shader.hasKey_iff.mpr hsame] at hno
    contradiction

theorem extends_intern (pool : Pool) (s : Shader) : pool.Extends (pool.intern s).1 := by
  rcases pool.intern_cases s with ⟨id, found, h, -, -⟩ | ⟨h, -⟩
  · rw [h]
    exact Extends.refl pool
  · rw [h]
    exact List.prefix_append _ _

/-- The id that interning gives holds a shader with the key that was asked for. -/
theorem get?_intern (pool : Pool) (s : Shader) :
    ∃ found, (pool.intern s).1.get? (pool.intern s).2 = some found ∧ found.SameKey s := by
  rcases pool.intern_cases s with ⟨id, found, h, hfound, hkey⟩ | ⟨h, -⟩
  · rw [h]
    exact ⟨found, hfound, hkey⟩
  · rw [h]
    exact ⟨s, List.getElem?_concat_length, rfl, rfl⟩

theorem mem_intern {pool : Pool} {s a : Shader} (h : a ∈ (pool.intern s).1.shaders) :
    a ∈ pool.shaders ∨ a = s := by
  rcases pool.intern_cases s with ⟨id, found, hi, -, -⟩ | ⟨hi, -⟩
  · rw [hi] at h
    exact Or.inl h
  · rw [hi] at h
    exact (List.mem_append.mp h).imp_right List.mem_singleton.mp

/-- A shader that interning has added is the one that was asked for, at the id that interning gives. -/
theorem of_get?_intern {pool : Pool} {s a : Shader} {id : Nat}
    (h : (pool.intern s).1.get? id = some a) :
    pool.get? id = some a ∨ (a = s ∧ (pool.intern s).2 = id) := by
  rcases pool.intern_cases s with ⟨other, found, hi, -, -⟩ | ⟨hi, -⟩
  · rw [hi] at h
    exact Or.inl h
  · rw [hi] at h ⊢
    change (pool.shaders ++ [s])[id]? = some a at h
    by_cases hlt : id < pool.shaders.length
    · rw [List.getElem?_append_left hlt] at h
      exact Or.inl h
    · rw [List.getElem?_append_right (Nat.le_of_not_lt hlt)] at h
      obtain ⟨hlast, heq⟩ := List.getElem?_eq_some_iff.mp h
      rw [List.length_singleton] at hlast
      rw [List.getElem_singleton] at heq
      refine Or.inr ⟨heq.symm, ?_⟩
      change pool.shaders.length = id
      omega

theorem Distinct.intern {pool : Pool} (h : pool.Distinct) (s : Shader) :
    (pool.intern s).1.Distinct := by
  rcases pool.intern_cases s with ⟨id, found, hi, -, -⟩ | ⟨hi, hnew⟩
  · rw [hi]
    exact h
  · rw [hi]
    refine List.pairwise_append.mpr ⟨h, List.pairwise_singleton _ _, fun a ha b hb => ?_⟩
    rw [List.mem_singleton.mp hb]
    exact hnew a ha

/-- Interning makes its key known and leaves every other key as it was. -/
theorem lookup_intern (pool : Pool) (s : Shader) (stage : Stage) (identity : String) :
    (pool.intern s).1.lookup stage identity =
      if s.hasKey stage identity then some (pool.intern s).2 else pool.lookup stage identity := by
  unfold intern
  cases hfound : pool.lookup s.stage s.identity with
  | some id =>
    dsimp only
    split
    · next hkey =>
      obtain ⟨rfl, rfl⟩ := Shader.hasKey_eq_true.mp hkey
      exact hfound
    · rfl
  | none =>
    dsimp only
    unfold lookup
    rw [List.findIdx?_append, List.findIdx?_singleton]
    split
    · next hkey =>
      obtain ⟨rfl, rfl⟩ := Shader.hasKey_eq_true.mp hkey
      unfold lookup at hfound
      rw [hfound, Option.map_some, Nat.zero_add]
      rfl
    · exact Option.or_none

theorem size_intern (pool : Pool) (s : Shader) :
    (pool.intern s).1.size =
      pool.size + if pool.lookup s.stage s.identity = none then 1 else 0 := by
  unfold intern
  cases pool.lookup s.stage s.identity with
  | some id => rfl
  | none => exact List.length_append

/-- The pool that is left when `requests` have been interned one after the other. -/
def internAll (pool : Pool) (requests : List Shader) : Pool :=
  requests.foldl (fun p s => (p.intern s).1) pool

theorem Distinct.internAll {pool : Pool} (h : pool.Distinct) (requests : List Shader) :
    (pool.internAll requests).Distinct := by
  induction requests generalizing pool with
  | nil => exact h
  | cons s requests ih => exact ih (h.intern s)

theorem size_internAll_le (pool : Pool) (requests : List Shader) :
    (pool.internAll requests).size ≤ pool.size + requests.length := by
  induction requests generalizing pool with
  | nil => exact Nat.le_refl _
  | cons s requests ih =>
    have hrest := ih (pool.intern s).1
    have hfirst := pool.size_intern s
    change ((pool.intern s).1.internAll requests).size ≤ pool.size + (requests.length + 1)
    split at hfirst <;> omega

end Pool

end EffectLink
