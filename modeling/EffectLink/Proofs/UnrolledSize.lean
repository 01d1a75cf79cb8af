import EffectLink.Proofs.PackedSize
import EffectLink.Proofs.UnrolledLeaves

/-! Measuring and unrolling enter the nested structures in the same order and stop at the first that
cannot be entered; measuring may stop earlier, where a sum passes the limit. -/

namespace EffectLink

open Relation (ReflTransGen)

/-- Bytes of a leaf, with its array multiplied out. -/
def leafBytes (leaf : Parameter) : Nat :=
  leaf.type.builtinBytes?.getD 0 * (leaf.arraySize.getD 1).toNat

namespace SymbolTable

variable {t : SymbolTable} {s : Structure} {visiting : List String} {root : String}

/-- Neither the structure nor one that is reached from it has an array of structures, unless the array is
of one element. -/
def SingleNested (t : SymbolTable) (s : Structure) : Prop :=
  ∀ inner, ReflTransGen t.Nests s inner → ∀ member ∈ inner.members,
    member.type.userName?.isSome = true → member.arraySize.getD 1 = 1

/-- The leaves are there if the size is, and they take just as many bytes if `exact` holds. They are missing
for the same reason as the size, unless the size is too large. -/
structure Follows (exact : Prop) (bytes : Except LayoutError Nat)
    (leaves : Except LayoutError (List Parameter)) : Prop where
  ok : ∀ k, bytes = .ok k → ∃ found, leaves = .ok found ∧ (exact → (found.map leafBytes).sum = k)
  error : ∀ e, bytes = .error e → (∀ name, e ≠ .overflow name) → leaves = .error e

theorem follows_error (exact : Prop) (e : LayoutError) : Follows exact (.error e) (.error e) := by
  refine ⟨?_, ?_⟩
  · intro k h
    contradiction
  · intro cause h _
    cases h
    rfl

/-- One element of an array has the leaves of the array. -/
theorem Follows.times {exact exact' : Prop} {bytes : Except LayoutError Nat}
    {leaves : Except LayoutError (List Parameter)} {count : Nat} (h : Follows exact bytes leaves)
    (hexact : exact' → exact ∧ count = 1) : Follows exact' (bytes.map (· * count)) leaves := by
  cases bytes with
  | error e =>
    refine ⟨?_, ?_⟩
    · intro k hk
      contradiction
    · intro cause hcause
      cases hcause
      exact h.error e rfl
  | ok bytes =>
    refine ⟨?_, ?_⟩
    · intro k hk
      cases hk
      obtain ⟨found, hfound, hsum⟩ := h.ok bytes rfl
      refine ⟨found, hfound, ?_⟩
      intro hholds
      obtain ⟨hholds, hcount⟩ := hexact hholds
      calc (found.map leafBytes).sum = bytes := hsum hholds
        _ = bytes * 1 := (Nat.mul_one bytes).symm
        _ = bytes * count := by rw [hcount]
    · intro cause hcause
      contradiction

/-- Adding up members and unrolling them in turn. -/
theorem follows_members {exact : Prop} {element : DataType → Except LayoutError Nat} {owner : String}
    {unrolled : Parameter → Except LayoutError (List Parameter)} {members : List Parameter} {sum : Nat}
    (hmember : ∀ member ∈ members,
      Follows exact ((element member.type).map (· * (member.arraySize.getD 1).toNat)) (unrolled member)) :
    (∀ k, members.foldlM (addMember element owner) sum = .ok k →
      ∃ parts, members.mapM unrolled = .ok parts ∧
        (exact → sum + (parts.flatten.map leafBytes).sum = k)) ∧
    (∀ e, members.foldlM (addMember element owner) sum = .error e → (∀ name, e ≠ .overflow name) →
      members.mapM unrolled = .error e) := by
  -- the sum so far is an argument of the fold, so the induction is for every sum
  induction members generalizing sum with
  | nil =>
    refine ⟨?_, ?_⟩
    · intro k h
      cases h
      exact ⟨[], rfl, fun _ => rfl⟩
    · intro e h
      contradiction
  | cons first rest ih =>
    obtain ⟨hfirst, hrest⟩ := List.forall_mem_cons.mp hmember
    rw [List.foldlM_cons]
    cases hnext : addMember element owner sum first with
    | error cause =>
      refine ⟨?_, ?_⟩
      · intro k h
        contradiction
      · intro e h hlimit
        cases h
        rcases addMember_eq_error.mp hnext with helement | ⟨_, _, _, hcause⟩
        · rw [helement] at hfirst
          rw [List.mapM_cons, hfirst.error cause rfl hlimit]
          rfl
        · -- past the limit there is no size, whatever is unrolled
          exact absurd hcause (hlimit owner)
    | ok next =>
      obtain ⟨bytes, helement, hnext, -⟩ := addMember_eq_ok.mp hnext
      rw [helement] at hfirst
      obtain ⟨found, hfound, hbytes⟩ := hfirst.ok (bytes * (first.arraySize.getD 1).toNat) rfl
      obtain ⟨hok, herror⟩ := ih hrest
      refine ⟨?_, ?_⟩
      · intro k h
        obtain ⟨parts, hparts, hsum⟩ := hok k h
        refine ⟨found :: parts, mapM_cons_eq_ok.mpr ⟨found, parts, hfound, hparts, rfl⟩, ?_⟩
        intro hexact
        calc sum + ((found :: parts).flatten.map leafBytes).sum
            = sum + ((found.map leafBytes).sum + (parts.flatten.map leafBytes).sum) := by
              rw [List.flatten_cons, List.map_append, List.sum_append]
          _ = next + (parts.flatten.map leafBytes).sum := by
              rw [hbytes hexact, hnext, Nat.add_assoc]
          _ = k := hsum hexact
      · intro e h hlimit
        rw [List.mapM_cons, hfound, herror e h hlimit]
        rfl

theorem SingleNested.of_nests {inner : Structure} (h : t.SingleNested s) (hnests : t.Nests s inner) :
    t.SingleNested inner :=
  fun below hbelow => h below (.head hnests hbelow)

/-- A size and the leaves are found by the same visits. -/
theorem follows_within (t : SymbolTable) (visiting : List String) (root : String) (s : Structure) :
    Follows (t.SingleNested s) (t.sizeWithin visiting s) (t.leavesWithin visiting root s) := by
  induction visiting using t.visiting_induction generalizing root s with
  | step visiting ih =>
    have hmember : ∀ member ∈ s.members,
        Follows (t.SingleNested s)
          ((t.elementSize visiting member.type).map (· * (member.arraySize.getD 1).toNat))
          (t.memberLeaves visiting root member) := by
      intro member hmember
      unfold elementSize memberLeaves
      cases htype : member.type with
      | builtin kind =>
        refine ⟨?_, ?_⟩
        · intro k hk
          cases hk
          refine ⟨_, rfl, ?_⟩
          intro _
          simp [leafBytes, DataType.builtinBytes?]
        · intro e he
          contradiction
      | user name =>
        dsimp only
        unfold sizeBelow leavesBelow
        cases henter : t.enter visiting name.text with
        -- both enter with the same names on the way, so they fail together
        | error e => exact follows_error _ e
        | ok inner =>
          apply (ih name.text inner henter (root ++ "." ++ member.name) inner).times
          intro hsingle
          obtain ⟨-, hinner⟩ := enter_eq_ok.mp henter
          have hcount : member.arraySize.getD 1 = 1 := by
            apply hsingle s .refl member hmember
            rw [htype]
            rfl
          exact ⟨hsingle.of_nests ⟨member, hmember, name, htype, hinner⟩, by rw [hcount]; rfl⟩
    obtain ⟨hok, herror⟩ := follows_members hmember
    rw [sizeWithin_eq]
    refine ⟨?_, ?_⟩
    · intro k hk
      obtain ⟨parts, hparts, hsum⟩ := hok k hk
      refine ⟨parts.flatten, leavesWithin_eq_ok.mpr ⟨parts, hparts, rfl⟩, ?_⟩
      intro hsingle
      rw [← hsum hsingle, Nat.zero_add]
    · intro e he hlimit
      exact leavesWithin_eq_error.mpr (herror e he hlimit)

/-- If a structure has a size then it can be unrolled, and the bytes of the leaves add up to the size
where no nested structure stands in an array. If it has no size because of a name that is not a structure
or because of a cycle, unrolling reports the same name or the same cycle. -/
theorem unroll_follows_size (t : SymbolTable) (s : Structure) (root : String) :
    (∀ k, t.structureSize s = .ok k → ∃ leaves, t.unroll root s = .ok leaves ∧
      (t.SingleNested s → (leaves.map leafBytes).sum = k)) ∧
    (∀ cause, t.structureSize s = .error (.lookup cause) →
      t.unroll root s = .error (.lookup cause)) ∧
    (∀ path, t.structureSize s = .error (.cycle path) →
      t.unroll root s = .error (.cycle path)) := by
  have hfollows := follows_within t [s.name] root s
  refine ⟨hfollows.ok, ?_, ?_⟩
  · intro cause hcause
    exact hfollows.error _ hcause (fun _ h => LayoutError.noConfusion h)
  · intro path hpath
    exact hfollows.error _ hpath (fun _ h => LayoutError.noConfusion h)

end SymbolTable

/-- The lamps of the hall are not declared here. -/
def darkTable : SymbolTable := ⟨[.aggregate hall]⟩

/-- A manor takes as many bytes as its leaves; a hall without lamps cannot be measured or unrolled. -/
theorem unroll_follows_size_manor :
    manorTable.structureSize manor = .ok 76 ∧ (manorLeaves.map leafBytes).sum = 76 ∧
    darkTable.structureSize hall = .error (.lookup (.undefined "Lamp")) ∧
    darkTable.unroll "h" hall = .error (.lookup (.undefined "Lamp")) := by
  have hsize : manorTable.structureSize manor = .ok 76 := by decide +kernel
  have hmissing : darkTable.structureSize hall = .error (.lookup (.undefined "Lamp")) := by
    decide +kernel
  have hsingle : manorTable.SingleNested manor := by
    intro inner hreach
    rcases of_reached_manor hreach with rfl | rfl | rfl <;> decide
  obtain ⟨leaves, hleaves, hsum⟩ := (SymbolTable.unroll_follows_size manorTable manor "m").1 76 hsize
  rw [unroll_manor] at hleaves
  cases hleaves
  have hunroll := (SymbolTable.unroll_follows_size darkTable hall "h").2.1 _ hmissing
  exact ⟨hsize, hsum hsingle, hmissing, hunroll⟩

end EffectLink
