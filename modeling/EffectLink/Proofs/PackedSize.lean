import EffectLink.Layout
import EffectLink.Proofs.ProgramValidity
import Mathlib.Algebra.Group.Nat.Defs
import Mathlib.Algebra.GroupWithZero.Nat
import Mathlib.Logic.Relation

namespace EffectLink

open Relation (ReflTransGen TransGen)

namespace SymbolTable

variable {t : SymbolTable} {visiting : List String} {n inner : String} {s : Structure} {k : Nat}

/-- The structure `outer` has a member whose type is the structure `inner`. -/
def Contains (t : SymbolTable) (outer inner : String) : Prop :=
  ∃ s, t.resolveAggregate outer = .ok s ∧ ∃ member ∈ s.members, member.type.userName? = some inner

/-- Bytes of one element, where `size` gives those of structures. -/
def elementBytes (size : String → Nat) : DataType → Nat
  | .builtin kind => kind.info.bytes
  | .user name => size name.text

/-- The sum over all members, with arrays multiplied out. -/
def membersBytes (size : String → Nat) (members : List Parameter) : Nat :=
  (members.map fun member =>
    elementBytes size member.type * (member.arraySize.getD 1).toNat).sum

/-- The structure `n` takes exactly `k` bytes, however many these are. -/
inductive PackedSize (t : SymbolTable) : String → Nat → Prop
  | sum {n : String} {s : Structure} (size : String → Nat) (hs : t.resolveAggregate n = .ok s)
    (hsize : ∀ inner, t.Contains n inner → PackedSize t inner (size inner)) :
    PackedSize t n (membersBytes size s.members)

/-- What a structure needs to have a size, in terms of everything below it. -/
structure Measurable (t : SymbolTable) (n : String) : Prop where
  resolves : ∀ m, ReflTransGen t.Contains n m → ∃ s, t.resolveAggregate m = .ok s
  acyclic : ∀ m, ReflTransGen t.Contains n m → ¬TransGen t.Contains m m
  bounded : ∀ m, ReflTransGen t.Contains n m → ∀ k, t.PackedSize m k → k < 2 ^ 32

theorem contains_iff (hs : t.resolveAggregate n = .ok s) :
    t.Contains n inner ↔ ∃ member ∈ s.members, member.type.userName? = some inner := by
  constructor
  · rintro ⟨s', hs', hmember⟩
    rw [hs] at hs'
    cases hs'
    exact hmember
  · intro hmember
    exact ⟨s, hs, hmember⟩

theorem membersBytes_congr {size size' : String → Nat} {members : List Parameter}
    (h : ∀ member ∈ members, ∀ inner, member.type.userName? = some inner →
      size inner = size' inner) :
    membersBytes size members = membersBytes size' members := by
  unfold membersBytes
  congr 1
  apply List.map_congr_left
  intro member hmember
  have helement : elementBytes size member.type = elementBytes size' member.type := by
    cases htype : member.type with
    | builtin kind => rfl
    | user name => exact h member hmember name.text (by rw [htype]; rfl)
  rw [helement]

theorem membersBytes_cons (size : String → Nat) (first : Parameter) (rest : List Parameter) :
    membersBytes size (first :: rest) =
      elementBytes size first.type * (first.arraySize.getD 1).toNat + membersBytes size rest := by
  unfold membersBytes
  rw [List.map_cons, List.sum_cons]

/-- There is at most one exact size. -/
theorem PackedSize.unique {k' : Nat} (h : t.PackedSize n k) (h' : t.PackedSize n k') : k = k' := by
  induction h generalizing k' with
  | sum size hs _ ih =>
    obtain ⟨size', hs', hsize'⟩ := h'
    rw [hs] at hs'
    cases hs'
    apply membersBytes_congr
    intro member hmember inner hinner
    have hcontains := (contains_iff hs).mpr ⟨member, hmember, hinner⟩
    exact ih inner hcontains (hsize' inner hcontains)

theorem Measurable.of_contains (h : t.Measurable n) (hinner : t.Contains n inner) :
    t.Measurable inner :=
  ⟨fun m hm => h.resolves m (.head hinner hm), fun m hm => h.acyclic m (.head hinner hm),
    fun m hm => h.bounded m (.head hinner hm)⟩

section Sums

variable {element : DataType → Except LayoutError Nat} {owner : String} {members : List Parameter}
  {sum : Nat}

/-- Adds one member, given the sizes of elements. -/
def addMember (element : DataType → Except LayoutError Nat) (owner : String) (sum : Nat)
    (member : Parameter) : Except LayoutError Nat := do
  let bytes ← element member.type
  let total := sum + bytes * (member.arraySize.getD 1).toNat
  if total < sizeLimit then .ok total else .error (.overflow owner)

theorem addMember_eq_ok {member : Parameter} :
    addMember element owner sum member = .ok k ↔
      ∃ bytes, element member.type = .ok bytes ∧
        k = sum + bytes * (member.arraySize.getD 1).toNat ∧ k < sizeLimit := by
  unfold addMember
  cases element member.type with
  | error e => simp [bind, Except.bind]
  | ok bytes =>
    simp only [bind, Except.bind]
    by_cases htotal : sum + bytes * (member.arraySize.getD 1).toNat < sizeLimit
    · rw [if_pos htotal]
      constructor
      · intro h
        cases h
        exact ⟨bytes, rfl, rfl, htotal⟩
      · rintro ⟨_, hbytes, rfl, -⟩
        cases hbytes
        rfl
    · rw [if_neg htotal]
      constructor
      · intro h
        contradiction
      · rintro ⟨_, hbytes, rfl, hk⟩
        cases hbytes
        exact absurd hk htotal

/-- A member cannot be added if its element has no size, or if the sum passes the limit. -/
theorem addMember_eq_error {member : Parameter} {e : LayoutError} :
    addMember element owner sum member = .error e ↔
      element member.type = .error e ∨
      ∃ bytes, element member.type = .ok bytes ∧
        sizeLimit ≤ sum + bytes * (member.arraySize.getD 1).toNat ∧ e = .overflow owner := by
  unfold addMember
  cases element member.type with
  | error cause => simp [bind, Except.bind]
  | ok bytes =>
    simp only [bind, Except.bind]
    by_cases htotal : sum + bytes * (member.arraySize.getD 1).toNat < sizeLimit
    · have hbelow : ¬sizeLimit ≤ sum + bytes * (member.arraySize.getD 1).toNat :=
        Nat.not_le_of_lt htotal
      rw [if_pos htotal]
      simp [hbelow]
    · rw [if_neg htotal]
      simp [Nat.le_of_not_lt htotal, eq_comm]

/-- A sum needs the sizes of all elements. -/
theorem element_of_foldlM (h : members.foldlM (addMember element owner) sum = .ok k) :
    ∀ member ∈ members, ∃ bytes, element member.type = .ok bytes := by
  induction members generalizing sum with
  | nil =>
    intro member hmember
    exact absurd hmember List.not_mem_nil
  | cons first rest ih =>
    rw [List.foldlM_cons] at h
    cases hfirst : addMember element owner sum first with
    | error e =>
      rw [hfirst] at h
      contradiction
    | ok next =>
      rw [hfirst] at h
      obtain ⟨bytes, hbytes, -⟩ := addMember_eq_ok.mp hfirst
      exact List.forall_mem_cons.mpr ⟨⟨bytes, hbytes⟩, ih h⟩

/-- A sum of sizes that are all known is exact if it stays below the limit. -/
theorem foldlM_addMember {size : String → Nat} (hsum : sum < sizeLimit)
    (hsize : ∀ member ∈ members, element member.type = .ok (elementBytes size member.type)) :
    members.foldlM (addMember element owner) sum = .ok k ↔
      k = sum + membersBytes size members ∧ k < sizeLimit := by
  induction members generalizing sum with
  | nil =>
    have hnil : sum + membersBytes size [] = sum := Nat.add_zero sum
    rw [hnil]
    constructor
    · intro h
      cases h
      exact ⟨rfl, hsum⟩
    · rintro ⟨rfl, -⟩
      rfl
  | cons first rest ih =>
    obtain ⟨hfirst, hrest⟩ := List.forall_mem_cons.mp hsize
    rw [List.foldlM_cons, membersBytes_cons, ← Nat.add_assoc]
    cases hnext : addMember element owner sum first with
    | ok next =>
      obtain ⟨bytes, hbytes, hvalue, hlimit⟩ := addMember_eq_ok.mp hnext
      rw [hfirst] at hbytes
      cases hbytes
      rw [← hvalue]
      exact ih hlimit hrest
    | error e =>
      -- the sum is past the limit here already, and it never falls
      have hpast : ¬sum + elementBytes size first.type * (first.arraySize.getD 1).toNat <
          sizeLimit := by
        intro hlimit
        rw [addMember_eq_ok.mpr ⟨_, hfirst, rfl, hlimit⟩] at hnext
        contradiction
      constructor
      · intro h
        contradiction
      · rintro ⟨rfl, hlimit⟩
        omega

end Sums

/-- Size of the structure `n`, found as the type of a member below the structures being visited. -/
def sizeBelow (t : SymbolTable) (visiting : List String) (n : String) : Except LayoutError Nat :=
  (t.enter visiting n).bind (t.sizeWithin (visiting ++ [n]))

def elementSize (t : SymbolTable) (visiting : List String) : DataType → Except LayoutError Nat
  | .builtin kind => .ok kind.info.bytes
  | .user name => t.sizeBelow visiting name.text

theorem sizeWithin_eq (t : SymbolTable) (visiting : List String) (s : Structure) :
    t.sizeWithin visiting s = s.members.foldlM (addMember (t.elementSize visiting) s.name) 0 := by
  rw [sizeWithin]
  congr 1
  funext sum member
  unfold addMember elementSize sizeBelow
  cases member.type with
  | builtin kind => rfl
  | user name =>
    dsimp only
    split
    · next e he => rw [he]; rfl
    · next inner hinner => rw [hinner]; rfl

theorem sizeBelow_eq_ok :
    t.sizeBelow visiting n = .ok k ↔ n ∉ visiting ∧
      ∃ s, t.resolveAggregate n = .ok s ∧ t.sizeWithin (visiting ++ [n]) s = .ok k := by
  unfold sizeBelow
  cases henter : t.enter visiting n with
  | ok s =>
    obtain ⟨hn, hs⟩ := enter_eq_ok.mp henter
    rw [hs]
    simp [Except.bind, hn]
  | error e =>
    constructor
    · intro h
      contradiction
    · rintro ⟨hn, s, hs, -⟩
      rw [enter_eq_ok.mpr ⟨hn, hs⟩] at henter
      contradiction

/-- Elements of known sizes. -/
theorem elementSize_eq_ok {size : String → Nat} {type : DataType}
    (h : ∀ inner, type.userName? = some inner → t.sizeBelow visiting inner = .ok (size inner)) :
    t.elementSize visiting type = .ok (elementBytes size type) := by
  cases type with
  | builtin kind => rfl
  | user name => exact h name.text rfl

/-- The element of a structure type has the size of the structure. -/
theorem sizeBelow_of_elementSize {type : DataType} (h : t.elementSize visiting type = .ok k)
    (hname : type.userName? = some inner) : t.sizeBelow visiting inner = .ok k := by
  cases type with
  | builtin kind => contradiction
  | user name =>
    cases hname
    exact h

/-- Where the structures below it have sizes, a structure has the exact size if it is not too large. -/
theorem sizeWithin_eq_ok {size : String → Nat} (hs : t.resolveAggregate n = .ok s)
    (hsize : ∀ inner, t.Contains n inner → t.sizeBelow visiting inner = .ok (size inner)) :
    t.sizeWithin visiting s = .ok k ↔ k = membersBytes size s.members ∧ k < sizeLimit := by
  have helement : ∀ member ∈ s.members,
      t.elementSize visiting member.type = .ok (elementBytes size member.type) := by
    intro member hmember
    apply elementSize_eq_ok
    intro inner hname
    exact hsize inner ((contains_iff hs).mpr ⟨member, hmember, hname⟩)
  have hpositive : 0 < sizeLimit := by decide
  rw [sizeWithin_eq, foldlM_addMember hpositive helement, Nat.zero_add]

/-- A structure with a size has measured what it contains. -/
theorem sizeBelow_of_sizeWithin (hs : t.resolveAggregate n = .ok s)
    (h : t.sizeWithin visiting s = .ok k) (hinner : t.Contains n inner) :
    ∃ bytes, t.sizeBelow visiting inner = .ok bytes := by
  rw [sizeWithin_eq] at h
  obtain ⟨member, hmember, hname⟩ := (contains_iff hs).mp hinner
  obtain ⟨bytes, hbytes⟩ := element_of_foldlM h member hmember
  exact ⟨bytes, sizeBelow_of_elementSize hbytes hname⟩

/-- One size for each structure that has one. -/
theorem exists_size {names : String → Prop}
    (h : ∀ inner, names inner → ∃ bytes, t.sizeBelow visiting inner = .ok bytes) :
    ∃ size : String → Nat, ∀ inner, names inner → t.sizeBelow visiting inner = .ok (size inner) := by
  refine ⟨fun inner => (t.sizeBelow visiting inner).toOption.getD 0, ?_⟩
  intro inner hinner
  obtain ⟨bytes, hbytes⟩ := h inner hinner
  simp only [hbytes, Except.toOption, Option.getD_some]

/-- A size that is found is exact, and nothing below the structure is being visited. -/
theorem measurable_of_sizeBelow (h : t.sizeBelow visiting n = .ok k) :
    t.PackedSize n k ∧ t.Measurable n ∧ ∀ m, ReflTransGen t.Contains n m → m ∉ visiting := by
  induction visiting using t.visiting_induction generalizing n k with
  | step visiting ih =>
    obtain ⟨hn, s, hs, hk⟩ := sizeBelow_eq_ok.mp h
    have henter := enter_eq_ok.mpr ⟨hn, hs⟩
    obtain ⟨size, hsize⟩ := exists_size fun inner hinner => sizeBelow_of_sizeWithin hs hk hinner
    have hbelow (inner : String) (hinner : t.Contains n inner) :=
      ih n s henter (hsize inner hinner)
    obtain ⟨hvalue, hlimit⟩ := (sizeWithin_eq_ok hs hsize).mp hk
    have hpacked : t.PackedSize n k := by
      rw [hvalue]
      exact .sum size hs fun inner hinner => (hbelow inner hinner).1
    refine ⟨hpacked, ⟨?_, ?_, ?_⟩, ?_⟩
    · intro m hm
      rcases hm.cases_head with rfl | ⟨inner, hinner, hm⟩
      · exact ⟨s, hs⟩
      · exact (hbelow inner hinner).2.1.resolves m hm
    · intro m hm hcycle
      rcases hm.cases_head with rfl | ⟨inner, hinner, hm⟩
      · -- the way back would end at a structure that is being visited
        obtain ⟨inner, hinner, hback⟩ := TransGen.head'_iff.mp hcycle
        exact (hbelow inner hinner).2.2 n hback (List.mem_append_right _ List.mem_cons_self)
      · exact (hbelow inner hinner).2.1.acyclic m hm hcycle
    · intro m hm k' hk'
      rcases hm.cases_head with rfl | ⟨inner, hinner, hm⟩
      · rw [hk'.unique hpacked]
        exact hlimit
      · exact (hbelow inner hinner).2.1.bounded m hm k' hk'
    · intro m hm hvisiting
      rcases hm.cases_head with rfl | ⟨inner, hinner, hm⟩
      · exact hn hvisiting
      · exact (hbelow inner hinner).2.2 m hm (List.mem_append_left _ hvisiting)

/-- A structure that can be measured has a size wherever nothing below it is being visited. -/
theorem Measurable.exists_sizeBelow (h : t.Measurable n)
    (hfresh : ∀ m, ReflTransGen t.Contains n m → m ∉ visiting) :
    ∃ k, t.sizeBelow visiting n = .ok k := by
  induction visiting using t.visiting_induction generalizing n with
  | step visiting ih =>
    have hn : n ∉ visiting := hfresh n .refl
    obtain ⟨s, hs⟩ := h.resolves n .refl
    have hinside (inner : String) (hinner : t.Contains n inner) :
        ∃ bytes, t.sizeBelow (visiting ++ [n]) inner = .ok bytes := by
      refine ih n s (enter_eq_ok.mpr ⟨hn, hs⟩) (h.of_contains hinner) (fun m hm hvisiting => ?_)
      rcases List.mem_append.mp hvisiting with hearlier | hself
      · exact hfresh m (.head hinner hm) hearlier
      · rw [List.mem_singleton.mp hself] at hm
        exact h.acyclic n .refl (TransGen.head'_iff.mpr ⟨inner, hinner, hm⟩)
    obtain ⟨size, hsize⟩ := exists_size hinside
    have hpacked : t.PackedSize n (membersBytes size s.members) :=
      .sum size hs fun inner hinner => (measurable_of_sizeBelow (hsize inner hinner)).1
    have hlimit : membersBytes size s.members < sizeLimit := h.bounded n .refl _ hpacked
    exact ⟨_, sizeBelow_eq_ok.mpr ⟨hn, s, hs, (sizeWithin_eq_ok hs hsize).mpr ⟨rfl, hlimit⟩⟩⟩

theorem byteSize_eq_sizeBelow (t : SymbolTable) (n : TypeName) :
    t.byteSize (.user n) = t.sizeBelow [] n.text := by
  have hunfold : t.byteSize (.user n) =
      ((t.resolveAggregate n.text).mapError .lookup).bind t.structureSize := rfl
  have henter : t.enter [] n.text = (t.resolveAggregate n.text).mapError .lookup := rfl
  rw [hunfold, sizeBelow, henter]
  cases hs : t.resolveAggregate n.text with
  | error e => rfl
  | ok s =>
    have hname : s.name = n.text := name_of_get? (resolveAggregate_eq_ok.mp hs)
    change t.sizeWithin [s.name] s = t.sizeWithin [n.text] s
    rw [hname]

/-- A structure type has a size exactly if it can be measured, and then it has the exact packed size.
Otherwise there is an error, for tables with cycles as for all others. -/
theorem byteSize_exact (t : SymbolTable) (n : TypeName) :
    (∀ k, t.byteSize (.user n) = .ok k ↔ t.Measurable n.text ∧ t.PackedSize n.text k) ∧
    ((∃ e, t.byteSize (.user n) = .error e) ↔ ¬t.Measurable n.text) := by
  have hfound (h : t.Measurable n.text) : ∃ k, t.sizeBelow [] n.text = .ok k :=
    h.exists_sizeBelow fun _ _ => List.not_mem_nil
  rw [byteSize_eq_sizeBelow]
  refine ⟨fun k => ⟨fun h => ?_, ?_⟩, ?_, fun h => ?_⟩
  · obtain ⟨hpacked, hmeasurable, -⟩ := measurable_of_sizeBelow h
    exact ⟨hmeasurable, hpacked⟩
  · rintro ⟨hmeasurable, hpacked⟩
    obtain ⟨k', hk'⟩ := hfound hmeasurable
    rw [hk', (measurable_of_sizeBelow hk').1.unique hpacked]
  · rintro ⟨e, he⟩ hmeasurable
    obtain ⟨k, hk⟩ := hfound hmeasurable
    rw [he] at hk
    contradiction
  · cases hsize : t.sizeBelow [] n.text with
    | error e => exact ⟨e, rfl⟩
    | ok k => exact absurd (measurable_of_sizeBelow hsize).2.1 h

end SymbolTable

end EffectLink
