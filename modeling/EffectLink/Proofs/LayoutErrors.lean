import EffectLink.Proofs.PackedSize
import EffectLink.Proofs.UnrolledLeaves
import Mathlib.Data.List.Chain

/-! The structures being visited form a trail from the structure that was asked about. The part of
it from a name that turns up again is a cycle; what is met at its end is reached from its start. -/

namespace EffectLink

open Relation (ReflTransGen)

/-- The name that could not be used. -/
def LookupError.name : LookupError → String
  | .undefined name | .mismatch name _ _ => name

namespace SymbolTable

variable {t : SymbolTable} {n last inner : String} {visiting : List String} {s : Structure}
  {e : LayoutError}

/-- The path leads from a structure down to itself, and by no other structure twice. -/
structure IsCycle (t : SymbolTable) (path : List String) : Prop where
  long : 2 ≤ path.length
  closed : path.head? = path.getLast?
  distinct : path.dropLast.Nodup
  steps : path.IsChain t.Contains

/-- Some first members of the structure take 2 ^ 32 bytes or more without the others. -/
def Oversized (t : SymbolTable) (s : Structure) : Prop :=
  ∃ first, first <+: s.members ∧ ∃ size : String → Nat,
    (∀ member ∈ first, ∀ inner, member.type.userName? = some inner → t.PackedSize inner (size inner)) ∧
    2 ^ 32 ≤ membersBytes size first

/-- What the error says about the structure `n` is so. -/
def Explains (t : SymbolTable) (n : String) : LayoutError → Prop
  | .lookup cause =>
    ∃ outer, ReflTransGen t.Contains n outer ∧ t.Contains outer cause.name ∧
      t.resolveAggregate cause.name = .error cause
  | .cycle path =>
    t.IsCycle path ∧ ∃ first, path.head? = some first ∧ ReflTransGen t.Contains n first
  | .overflow name =>
    ReflTransGen t.Contains n name ∧ ∃ s, t.resolveAggregate name = .ok s ∧ t.Oversized s

theorem name_of_resolveAggregate_error {cause : LookupError}
    (h : t.resolveAggregate inner = .error cause) : cause.name = inner := by
  unfold resolveAggregate resolveAs at h
  split at h
  · cases h
    rfl
  · split at h
    · contradiction
    · cases h
      rfl

/-- The structures being visited, from the structure `n` down to the structure `last`. -/
structure Trail (t : SymbolTable) (n : String) (visiting : List String) (last : String) : Prop where
  starts : visiting.head? = some n
  ends : visiting.getLast? = some last
  steps : visiting.IsChain t.Contains
  distinct : visiting.Nodup

theorem trail_singleton (t : SymbolTable) (n : String) : t.Trail n [n] n :=
  ⟨rfl, rfl, List.isChain_singleton n, List.pairwise_singleton _ n⟩

theorem Trail.extend (h : t.Trail n visiting last) (hinner : t.Contains last inner)
    (hnew : inner ∉ visiting) : t.Trail n (visiting ++ [inner]) inner where
  starts := by
    rw [List.head?_append, h.starts]
    rfl
  ends := by simp
  steps := by
    apply List.isChain_append.mpr
    refine ⟨h.steps, List.isChain_singleton inner, ?_⟩
    intro x hx y hy
    rw [h.ends] at hx
    cases hx
    cases hy
    exact hinner
  distinct := by
    apply List.nodup_append.mpr
    refine ⟨h.distinct, List.pairwise_singleton _ inner, ?_⟩
    intro x hx y hy hxy
    rw [List.mem_singleton.mp hy] at hxy
    exact hnew (hxy ▸ hx)

theorem Trail.last_mem (h : t.Trail n visiting last) : last ∈ visiting :=
  List.mem_of_getLast? h.ends

theorem Trail.reaches (h : t.Trail n visiting last) {m : String} (hm : m ∈ visiting) :
    ReflTransGen t.Contains n m := by
  refine h.steps.induction (ReflTransGen t.Contains n) visiting ?_ ?_ m hm
  · intro x y hstep hx
    exact hx.tail hstep
  · intro hne
    have hhead : visiting.head hne = n := by
      apply Option.some.inj
      rw [← List.head?_eq_some_head, h.starts]
    rw [hhead]

/-- A name that turns up again closes a cycle with the trail from its first visit on. -/
theorem Trail.isCycle (h : t.Trail n visiting last) (hinner : t.Contains last inner)
    (hseen : inner ∈ visiting) :
    t.IsCycle (visiting.dropWhile (· != inner) ++ [inner]) ∧
      (visiting.dropWhile (· != inner) ++ [inner]).head? = some inner := by
  obtain ⟨before, after, hsplit, hbefore⟩ := List.eq_append_cons_of_mem hseen
  have hdrop : visiting.dropWhile (· != inner) = inner :: after := by
    have hall : ∀ m ∈ before, (m != inner) = true := by
      intro m hm
      apply bne_iff_ne.mpr
      intro heq
      exact hbefore (heq ▸ hm)
    rw [hsplit, List.dropWhile_append_of_pos hall]
    simp
  -- the cycle is the end of the trail, with the step from its last structure back to `inner`
  have hsuffix : inner :: after <:+ visiting := ⟨before, hsplit.symm⟩
  have hends : (inner :: after).getLast? = some last := by
    rw [← h.ends, hsplit, List.getLast?_append]
    simp [List.getLast?_cons]
  rw [hdrop]
  refine ⟨⟨?_, ?_, ?_, ?_⟩, rfl⟩
  · simp
  · rw [List.getLast?_concat]
    rfl
  · rw [List.dropLast_concat]
    exact h.distinct.sublist hsuffix.sublist
  · apply List.isChain_append.mpr
    refine ⟨h.steps.suffix hsuffix, List.isChain_singleton inner, ?_⟩
    intro x hx y hy
    rw [hends] at hx
    cases hx
    cases hy
    exact hinner

/-- What cannot be entered at the end of a trail. -/
theorem Trail.explains_enter (h : t.Trail n visiting last) (hinner : t.Contains last inner)
    (he : t.enter visiting inner = .error e) : t.Explains n e := by
  unfold enter at he
  split at he
  · next hseen =>
    have hseen : inner ∈ visiting := List.contains_iff_mem.mp hseen
    obtain ⟨hcycle, hfirst⟩ := h.isCycle hinner hseen
    cases he
    exact ⟨hcycle, inner, hfirst, h.reaches hseen⟩
  · cases hfound : t.resolveAggregate inner with
    | ok found =>
      rw [hfound] at he
      contradiction
    | error cause =>
      rw [hfound] at he
      cases he
      have hname := name_of_resolveAggregate_error hfound
      rw [← hname] at hinner hfound
      exact ⟨last, h.reaches h.last_mem, hinner, hfound⟩

/-- An error from below the end of a trail is met on entering, or on the longer trail. -/
theorem Trail.explains_bind {α : Type} {f : Structure → Except LayoutError α}
    (h : t.Trail n visiting last) (hinner : t.Contains last inner)
    (he : (t.enter visiting inner).bind f = .error e)
    (hbelow : ∀ found, t.enter visiting inner = .ok found → t.Trail n (visiting ++ [inner]) inner →
      f found = .error e → t.Explains n e) : t.Explains n e := by
  cases henter : t.enter visiting inner with
  | error cause =>
    rw [henter] at he
    cases he
    exact h.explains_enter hinner henter
  | ok found =>
    rw [henter] at he
    obtain ⟨hnew, -⟩ := enter_eq_ok.mp henter
    exact hbelow found henter (h.extend hinner hnew) he

/-- A sum fails at a member that has no size, or at one with which it passes the limit. -/
theorem of_foldlM_error {element : DataType → Except LayoutError Nat} {owner : String}
    {members : List Parameter} {sum : Nat}
    (h : members.foldlM (addMember element owner) sum = .error e) :
    (∃ member ∈ members, element member.type = .error e) ∨
    e = .overflow owner ∧ ∃ first, first <+: members ∧
      (∀ member ∈ first, ∃ bytes, element member.type = .ok bytes) ∧
      ∀ size, (∀ member ∈ first, element member.type = .ok (elementBytes size member.type)) →
        sizeLimit ≤ sum + membersBytes size first := by
  induction members generalizing sum with
  | nil => contradiction
  | cons member rest ih =>
    rw [List.foldlM_cons] at h
    cases hnext : addMember element owner sum member with
    | error cause =>
      rw [hnext] at h
      cases h
      rcases addMember_eq_error.mp hnext with helement | ⟨bytes, helement, hpast, rfl⟩
      · left
        exact ⟨member, List.mem_cons_self, helement⟩
      · -- the sum so far is in `sum`, so the segment is the member alone
        right
        refine ⟨rfl, [member], ⟨rest, rfl⟩, ?_, ?_⟩
        · intro m hm
          rw [List.mem_singleton.mp hm]
          exact ⟨bytes, helement⟩
        · intro size hsize
          have hbytes := hsize member List.mem_cons_self
          rw [helement] at hbytes
          cases hbytes
          rw [membersBytes_cons]
          omega
    | ok next =>
      rw [hnext] at h
      obtain ⟨bytes, helement, hvalue, -⟩ := addMember_eq_ok.mp hnext
      rcases ih h with ⟨m, hm, hmember⟩ | ⟨howner, first, ⟨others, hfirst⟩, hall, hpast⟩
      · left
        exact ⟨m, List.mem_cons_of_mem _ hm, hmember⟩
      · right
        refine ⟨howner, member :: first, ⟨others, by rw [List.cons_append, hfirst]⟩, ?_, ?_⟩
        · exact List.forall_mem_cons.mpr ⟨⟨bytes, helement⟩, hall⟩
        · intro size hsize
          obtain ⟨hbytes, hsize⟩ := List.forall_mem_cons.mp hsize
          rw [helement] at hbytes
          cases hbytes
          have hpast := hpast size hsize
          rw [membersBytes_cons]
          omega

theorem contains_of_member {member : Parameter} {name : TypeName} (hs : t.resolveAggregate last = .ok s)
    (hmember : member ∈ s.members) (htype : member.type = .user name) : t.Contains last name.text :=
  ⟨s, hs, member, hmember, by rw [htype]; rfl⟩

/-- First members whose sizes pass the limit make a structure too large. -/
theorem oversized_of_elementSize {first : List Parameter} (hfirst : first <+: s.members)
    (hall : ∀ member ∈ first, ∃ bytes, t.elementSize visiting member.type = .ok bytes)
    (hpast : ∀ size,
      (∀ member ∈ first, t.elementSize visiting member.type = .ok (elementBytes size member.type)) →
        sizeLimit ≤ 0 + membersBytes size first) : t.Oversized s := by
  have hbelow : ∀ inner, (∃ member ∈ first, member.type.userName? = some inner) →
      ∃ bytes, t.sizeBelow visiting inner = .ok bytes := by
    intro inner hinner
    obtain ⟨member, hmember, hname⟩ := hinner
    obtain ⟨bytes, hbytes⟩ := hall member hmember
    exact ⟨bytes, sizeBelow_of_elementSize hbytes hname⟩
  -- only the structures in the segment are known to have a size, the others may be part of a cycle
  obtain ⟨size, hsize⟩ := exists_size hbelow
  refine ⟨first, hfirst, size, ?_, ?_⟩
  · intro member hmember inner hname
    exact (measurable_of_sizeBelow (hsize inner ⟨member, hmember, hname⟩)).1
  · have hlimit : sizeLimit ≤ 0 + membersBytes size first := by
      apply hpast
      intro member hmember
      apply elementSize_eq_ok
      intro inner hname
      exact hsize inner ⟨member, hmember, hname⟩
    rw [Nat.zero_add] at hlimit
    exact hlimit

theorem explains_sizeWithin (htrail : t.Trail n visiting last) (hs : t.resolveAggregate last = .ok s)
    (h : t.sizeWithin visiting s = .error e) : t.Explains n e := by
  induction visiting using t.visiting_induction generalizing last s with
  | step visiting ih =>
    rw [sizeWithin_eq] at h
    rcases of_foldlM_error h with ⟨member, hmember, helement⟩ | ⟨rfl, first, hfirst, hall, hpast⟩
    · cases htype : member.type with
      | builtin kind =>
        rw [htype] at helement
        contradiction
      | user name =>
        rw [htype] at helement
        apply htrail.explains_bind (contains_of_member hs hmember htype) helement
        intro found hfound hlonger hbelow
        obtain ⟨-, hresolved⟩ := enter_eq_ok.mp hfound
        exact ih name.text found hfound hlonger hresolved hbelow
    · have hname : s.name = last := name_of_get? (resolveAggregate_eq_ok.mp hs)
      rw [hname]
      exact ⟨htrail.reaches htrail.last_mem, s, hs, oversized_of_elementSize hfirst hall hpast⟩

theorem of_mapM_error {α β : Type} {f : α → Except LayoutError β} {items : List α}
    (h : items.mapM f = .error e) : ∃ item ∈ items, f item = .error e := by
  induction items with
  | nil => contradiction
  | cons first rest ih =>
    rw [List.mapM_cons] at h
    cases hfirst : f first with
    | error cause =>
      rw [hfirst] at h
      cases h
      exact ⟨first, List.mem_cons_self, hfirst⟩
    | ok value =>
      cases hrest : rest.mapM f with
      | error cause =>
        rw [hfirst, hrest] at h
        cases h
        obtain ⟨item, hitem, he⟩ := ih hrest
        exact ⟨item, List.mem_cons_of_mem _ hitem, he⟩
      | ok values =>
        rw [hfirst, hrest] at h
        contradiction

theorem explains_leavesWithin {root : String} (htrail : t.Trail n visiting last)
    (hs : t.resolveAggregate last = .ok s) (h : t.leavesWithin visiting root s = .error e) :
    t.Explains n e := by
  induction visiting using t.visiting_induction generalizing root last s with
  | step visiting ih =>
    obtain ⟨member, hmember, hleaves⟩ := of_mapM_error (leavesWithin_eq_error.mp h)
    unfold memberLeaves at hleaves
    split at hleaves
    · contradiction
    · next name htype =>
      apply htrail.explains_bind (contains_of_member hs hmember htype) hleaves
      intro found hfound hlonger hbelow
      obtain ⟨-, hresolved⟩ := enter_eq_ok.mp hfound
      exact ih name.text found hfound hlonger hresolved hbelow

/-- An error of measuring or unrolling a registered structure tells the truth. A cycle is one, a name that
is reported is the type of a member and not a structure, and a structure that is too large has members that
take 2 ^ 32 bytes; all of them are reached from the structure. -/
theorem layout_error_true (hs : t.resolveAggregate s.name = .ok s)
    (h : t.structureSize s = .error e ∨ ∃ root, t.unroll root s = .error e) :
    t.Explains s.name e := by
  have htrail := trail_singleton t s.name
  rcases h with h | ⟨root, h⟩
  · exact explains_sizeWithin htrail hs h
  · exact explains_leavesWithin htrail hs h

end SymbolTable

def den : Structure :=
  ⟨"Den", gate, [⟨"depth", .builtin .float, none, gate, .input, none, none⟩,
    ⟨"snake", .user ⟨"Snake", by decide⟩, none, gate, .input, none, none⟩]⟩

/-- A snake that bites its tail. -/
def snakeTable : SymbolTable :=
  ⟨[.aggregate den,
    .aggregate ⟨"Snake", gate, [⟨"tail", .user ⟨"Tail", by decide⟩, some 0, gate, .input, none, none⟩]⟩,
    .aggregate ⟨"Tail", gate, [⟨"bite", .user ⟨"Snake", by decide⟩, none, gate, .input, none, none⟩]⟩]⟩

def bank : Structure :=
  ⟨"Bank", gate, [⟨"vault", .user ⟨"Vault", by decide⟩, none, gate, .input, none, none⟩]⟩

/-- The vault of the bank has room for 2 ^ 28 vectors of 16 bytes. -/
def bankTable : SymbolTable :=
  ⟨[.aggregate bank,
    .aggregate ⟨"Vault", gate, [⟨"gold", .builtin .float4, some 0x10000000, gate, .input, none, none⟩]⟩]⟩

/-- The cycle lies below the structure that is asked about, and so does the structure that is too large. -/
theorem layout_error_true_snake :
    snakeTable.structureSize den = .error (.cycle ["Snake", "Tail", "Snake"]) ∧
    snakeTable.IsCycle ["Snake", "Tail", "Snake"] ∧
    ReflTransGen snakeTable.Contains "Den" "Snake" ∧
    bankTable.structureSize bank = .error (.overflow "Vault") ∧
    ∃ vault, bankTable.resolveAggregate "Vault" = .ok vault ∧ bankTable.Oversized vault := by
  have hden : snakeTable.resolveAggregate den.name = .ok den := by decide
  have hbank : bankTable.resolveAggregate bank.name = .ok bank := by decide
  have hcycle : snakeTable.structureSize den = .error (.cycle ["Snake", "Tail", "Snake"]) := by
    decide +kernel
  have hlarge : bankTable.structureSize bank = .error (.overflow "Vault") := by decide +kernel
  obtain ⟨hpath, first, hfirst, hreach⟩ := SymbolTable.layout_error_true hden (.inl hcycle)
  cases hfirst
  obtain ⟨-, hvault⟩ := SymbolTable.layout_error_true hbank (.inl hlarge)
  exact ⟨hcycle, hpath, hreach, hlarge, hvault⟩

end EffectLink
