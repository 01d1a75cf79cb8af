import EffectLink.Layout
import EffectLink.Proofs.PathOrder
import EffectLink.Proofs.ProgramValidity
import Mathlib.Data.List.Basic
import Mathlib.Logic.Relation

namespace EffectLink

open Relation (ReflTransGen)

/-- A builtin member, with the names of the members on the way to it and its own name last. -/
structure NestedMember where
  names : List String
  member : Parameter

namespace NestedMember

/-- The same member, seen from a structure that has the way to it in its member `name`. -/
def inside (name : String) (leaf : NestedMember) : NestedMember :=
  { leaf with names := name :: leaf.names }

/-- The member as it was declared, under its dotted name below `root`. -/
def unrolled (root : String) (leaf : NestedMember) : Parameter :=
  { leaf.member with name := root ++ "." ++ ".".intercalate leaf.names }

theorem unrolled_inside {root name : String} {leaf : NestedMember} (h : leaf.names ≠ []) :
    (leaf.inside name).unrolled root = leaf.unrolled (root ++ "." ++ name) := by
  unfold unrolled inside
  rw [String.intercalate_cons_of_ne_nil h]
  simp only [String.append_assoc]

end NestedMember

/-- Distinct member names, none of which has a dot in it. -/
def Structure.PlainMembers (s : Structure) : Prop :=
  (s.members.map (·.name)).Nodup ∧ ∀ member ∈ s.members, '.' ∉ member.name.toList

namespace SymbolTable

variable {t : SymbolTable} {s : Structure} {visiting : List String} {root : String}
  {leaves : List Parameter}

/-- A member of the structure `outer` is of the type `inner`. -/
def Nests (t : SymbolTable) (outer inner : Structure) : Prop :=
  ∃ member ∈ outer.members, ∃ name,
    member.type = .user name ∧ t.resolveAggregate name.text = .ok inner

/-- The structure has a leaf at a path, which is the list of the positions of members on the way down. -/
inductive BuiltinAt (t : SymbolTable) : Structure → List Nat → NestedMember → Prop where
  | here {s : Structure} {position : Nat} {member : Parameter} {kind : Kind}
      (hmember : s.members[position]? = some member) (htype : member.type = .builtin kind) :
      BuiltinAt t s [position] ⟨[member.name], member⟩
  | inside {s inner : Structure} {position : Nat} {member : Parameter} {name : TypeName}
      {path : List Nat} {leaf : NestedMember} (hmember : s.members[position]? = some member)
      (htype : member.type = .user name) (hinner : t.resolveAggregate name.text = .ok inner)
      (hleaf : BuiltinAt t inner path leaf) :
      BuiltinAt t s (position :: path) (leaf.inside member.name)

theorem BuiltinAt.names_ne_nil {path : List Nat} {leaf : NestedMember} (h : t.BuiltinAt s path leaf) :
    leaf.names ≠ [] := by
  cases h <;> exact List.cons_ne_nil _ _

/-- The leaves that a single member stands for. -/
def BuiltinFrom (t : SymbolTable) (member : Parameter) (path : List Nat) (leaf : NestedMember) : Prop :=
  match member.type with
  | .builtin _ => path = [] ∧ leaf = ⟨[member.name], member⟩
  | .user name => ∃ inner, t.resolveAggregate name.text = .ok inner ∧
      ∃ rest, t.BuiltinAt inner path rest ∧ leaf = rest.inside member.name

theorem builtinAt_iff {path : List Nat} {leaf : NestedMember} :
    Among t.BuiltinFrom 0 s.members path leaf ↔ t.BuiltinAt s path leaf := by
  constructor
  · intro h
    cases path with
    | nil => exact absurd h id
    | cons position path =>
      obtain ⟨member, hmember, hfrom⟩ := among_zero.mp h
      unfold BuiltinFrom at hfrom
      split at hfrom
      · next kind htype =>
        rw [hfrom.1, hfrom.2]
        exact .here hmember htype
      · next name htype =>
        obtain ⟨inner, hinner, rest, hrest, hleaf⟩ := hfrom
        rw [hleaf]
        exact .inside hmember htype hinner hrest
  · intro h
    cases h with
    | here hmember htype =>
      refine among_zero.mpr ⟨_, hmember, ?_⟩
      unfold BuiltinFrom
      rw [htype]
      exact ⟨rfl, rfl⟩
    | inside hmember htype hinner hleaf =>
      refine among_zero.mpr ⟨_, hmember, ?_⟩
      unfold BuiltinFrom
      rw [htype]
      exact ⟨_, hinner, _, hleaf, rfl⟩

/-- The leaves of the structure `n`, found as the type of a member below the structures being visited. -/
def leavesBelow (t : SymbolTable) (visiting : List String) (root n : String) :
    Except LayoutError (List Parameter) :=
  (t.enter visiting n).bind (t.leavesWithin (visiting ++ [n]) root)

def memberLeaves (t : SymbolTable) (visiting : List String) (root : String) (member : Parameter) :
    Except LayoutError (List Parameter) :=
  match member.type with
  | .builtin _ => .ok [{ member with name := root ++ "." ++ member.name }]
  | .user name => t.leavesBelow visiting (root ++ "." ++ member.name) name.text

theorem leavesWithin_eq (t : SymbolTable) (visiting : List String) (root : String) (s : Structure) :
    t.leavesWithin visiting root s =
      (s.members.mapM (t.memberLeaves visiting root)).map List.flatten := by
  have hbind (parts : Except LayoutError (List (List Parameter))) :
      (do let found ← parts; return found.flatten) = parts.map List.flatten := by
    cases parts <;> rfl
  rw [leavesWithin, hbind]
  congr 2
  funext member
  unfold memberLeaves leavesBelow
  cases member.type with
  | builtin kind => rfl
  | user name =>
    dsimp only
    split
    · next e he => rw [he]; rfl
    · next inner hinner => rw [hinner]; rfl

theorem leavesWithin_eq_ok :
    t.leavesWithin visiting root s = .ok leaves ↔
      ∃ parts, s.members.mapM (t.memberLeaves visiting root) = .ok parts ∧ leaves = parts.flatten := by
  rw [leavesWithin_eq]
  cases s.members.mapM (t.memberLeaves visiting root) with
  | error e => simp [Except.map]
  | ok parts => simp [Except.map, eq_comm]

theorem leavesWithin_eq_error {e : LayoutError} :
    t.leavesWithin visiting root s = .error e ↔
      s.members.mapM (t.memberLeaves visiting root) = .error e := by
  rw [leavesWithin_eq]
  cases s.members.mapM (t.memberLeaves visiting root) with
  | error e => simp [Except.map]
  | ok parts => simp [Except.map]

theorem mapM_cons_eq_ok {α β : Type} {f : α → Except LayoutError β} {first : α} {rest : List α}
    {values : List β} :
    (first :: rest).mapM f = .ok values ↔
      ∃ value later, f first = .ok value ∧ rest.mapM f = .ok later ∧ values = value :: later := by
  rw [List.mapM_cons]
  cases f first with
  | error e => simp [bind, Except.bind]
  | ok value =>
    cases rest.mapM f with
    | error e => simp [bind, Except.bind]
    | ok later =>
      simp only [bind, Except.bind, pure, Except.pure, Except.ok.injEq]
      constructor
      · intro h
        exact ⟨value, later, rfl, rfl, h.symm⟩
      · intro h
        obtain ⟨_, _, rfl, rfl, heq⟩ := h
        exact heq.symm

/-- The parameters are the values for which `holds`, in the order of their paths. -/
def Unrolls (root : String) (holds : List Nat → NestedMember → Prop) (leaves : List Parameter) : Prop :=
  ∃ entries, Lists holds entries ∧ leaves = entries.map fun entry => entry.2.unrolled root

/-- Unrolling members in turn gives the leaves that they stand for. -/
theorem unrolls_mapM {members : List Parameter} {parts : List (List Parameter)} {start : Nat}
    (h : members.mapM (t.memberLeaves visiting root) = .ok parts)
    (hmember : ∀ member ∈ members, ∀ leaves, t.memberLeaves visiting root member = .ok leaves →
      Unrolls root (t.BuiltinFrom member) leaves) :
    Unrolls root (Among t.BuiltinFrom start members) parts.flatten := by
  induction members generalizing start parts with
  | nil =>
    cases h
    exact ⟨[], lists_among_nil, rfl⟩
  | cons first rest ih =>
    obtain ⟨leaves, later, hfirst, hlater, rfl⟩ := mapM_cons_eq_ok.mp h
    obtain ⟨hhead, htail⟩ := List.forall_mem_cons.mp hmember
    obtain ⟨entries, hentries, hleaves⟩ := hhead leaves hfirst
    have hrest : Unrolls root (Among t.BuiltinFrom (start + 1) rest) later.flatten := ih hlater htail
    obtain ⟨others, hothers, hflat⟩ := hrest
    -- positions in front of the paths do not show in the names
    refine ⟨_, hentries.cons hothers, ?_⟩
    rw [List.flatten_cons, hleaves, hflat, List.map_append, List.map_map]
    rfl

/-- A member of a nested structure has the leaves of the structure, one step further down. -/
theorem unrolls_inside {member : Parameter} {name : TypeName} {inner : Structure}
    (htype : member.type = .user name) (hinner : t.resolveAggregate name.text = .ok inner)
    (h : Unrolls (root ++ "." ++ member.name) (t.BuiltinAt inner) leaves) :
    Unrolls root (t.BuiltinFrom member) leaves := by
  obtain ⟨entries, hentries, hleaves⟩ := h
  refine ⟨_, (hentries.map (NestedMember.inside member.name)).congr ?_, ?_⟩
  · intro path leaf
    unfold BuiltinFrom
    rw [htype]
    constructor
    · intro hleaf
      exact ⟨inner, hinner, hleaf⟩
    · intro hleaf
      obtain ⟨found, hfound, hleaf⟩ := hleaf
      rw [hinner] at hfound
      cases hfound
      exact hleaf
  · rw [hleaves, List.map_map]
    apply List.map_congr_left
    intro entry hentry
    have hleaf := (hentries.mem_iff entry.1 entry.2).mp hentry
    exact (NestedMember.unrolled_inside hleaf.names_ne_nil).symm

/-- Unrolling finds all leaves of a structure, and nothing else. -/
theorem unrolls_leavesWithin (h : t.leavesWithin visiting root s = .ok leaves) :
    Unrolls root (t.BuiltinAt s) leaves := by
  -- each nested structure is entered with one more name being visited
  induction visiting using t.visiting_induction generalizing root s leaves with
  | step visiting ih =>
    obtain ⟨parts, hparts, rfl⟩ := leavesWithin_eq_ok.mp h
    have hmember : ∀ member ∈ s.members, ∀ leaves, t.memberLeaves visiting root member = .ok leaves →
        Unrolls root (t.BuiltinFrom member) leaves := by
      intro member _ leaves hleaves
      unfold memberLeaves at hleaves
      split at hleaves
      · next kind htype =>
        cases hleaves
        refine ⟨[([], ⟨[member.name], member⟩)], lists_singleton ?_, ?_⟩
        · intro path leaf
          unfold BuiltinFrom
          rw [htype]
        · simp [NestedMember.unrolled]
      · next name htype =>
        unfold leavesBelow at hleaves
        cases henter : t.enter visiting name.text with
        | error e =>
          rw [henter] at hleaves
          contradiction
        | ok inner =>
          rw [henter] at hleaves
          obtain ⟨-, hinner⟩ := enter_eq_ok.mp henter
          exact unrolls_inside htype hinner (ih name.text inner henter hleaves)
    obtain ⟨entries, hentries, hleaves⟩ := unrolls_mapM hparts hmember
    exact ⟨entries, hentries.congr fun _ _ => builtinAt_iff, hleaves⟩

/-- A leaf is found by its names as by its positions. -/
theorem BuiltinAt.path_unique {path path' : List Nat} {leaf leaf' : NestedMember}
    (h : t.BuiltinAt s path leaf) (h' : t.BuiltinAt s path' leaf')
    (hdistinct : ∀ inner, ReflTransGen t.Nests s inner → (inner.members.map (·.name)).Nodup)
    (hnames : leaf.names = leaf'.names) : path = path' := by
  -- members of one structure with the same name stand at the same position
  have hposition {s : Structure} {i j : Nat} {a b : Parameter} (hs : (s.members.map (·.name)).Nodup)
      (ha : s.members[i]? = some a) (hb : s.members[j]? = some b) (hname : a.name = b.name) : i = j := by
    have hi : i < (s.members.map (·.name)).length := by
      rw [List.length_map]
      exact (List.getElem?_eq_some_iff.mp ha).1
    apply (List.getElem?_inj hi hs).mp
    rw [List.getElem?_map, List.getElem?_map, ha, hb, Option.map_some, Option.map_some, hname]
  induction h generalizing path' leaf' with
  | here hmember htype =>
    cases h' with
    | here hmember' htype' =>
      rw [hposition (hdistinct _ .refl) hmember hmember' (List.cons.inj hnames).1]
    | inside hmember' htype' hinner' hleaf' =>
      exact absurd (List.cons.inj hnames).2.symm hleaf'.names_ne_nil
  | inside hmember htype hinner hleaf ih =>
    cases h' with
    | here hmember' htype' => exact absurd (List.cons.inj hnames).2 hleaf.names_ne_nil
    | inside hmember' htype' hinner' hleaf' =>
      obtain ⟨hname, hrest⟩ := List.cons.inj hnames
      -- the first name decides the member, so both ways go on in the same structure
      have hi := hposition (hdistinct _ .refl) hmember hmember' hname
      subst hi
      rw [hmember] at hmember'
      cases hmember'
      rw [htype] at htype'
      cases htype'
      rw [hinner] at hinner'
      cases hinner'
      have hnests : t.Nests _ _ := ⟨_, List.mem_of_getElem? hmember, _, htype, hinner⟩
      rw [ih hleaf' (fun inner hreach => hdistinct inner (.head hnests hreach)) hrest]

/-- Names on a way are names of members. -/
theorem BuiltinAt.of_mem_names {path : List Nat} {leaf : NestedMember} (h : t.BuiltinAt s path leaf)
    {name : String} (hname : name ∈ leaf.names) :
    ∃ inner, ReflTransGen t.Nests s inner ∧ ∃ member ∈ inner.members, member.name = name := by
  induction h with
  | here hmember htype =>
    exact ⟨_, .refl, _, List.mem_of_getElem? hmember, (List.mem_singleton.mp hname).symm⟩
  | inside hmember htype hinner hleaf ih =>
    rcases List.mem_cons.mp hname with rfl | hname
    · exact ⟨_, .refl, _, List.mem_of_getElem? hmember, rfl⟩
    · obtain ⟨inner, hreach, hfound⟩ := ih hname
      exact ⟨inner, .head ⟨_, List.mem_of_getElem? hmember, _, htype, hinner⟩ hreach, hfound⟩

/-- Dotted names without further dots can be taken apart again. -/
theorem dotted_injective {root : String} {names names' : List String} (hne : names ≠ [])
    (hne' : names' ≠ []) (hplain : ∀ name ∈ names, '.' ∉ name.toList)
    (hplain' : ∀ name ∈ names', '.' ∉ name.toList)
    (h : root ++ "." ++ ".".intercalate names = root ++ "." ++ ".".intercalate names') :
    names = names' := by
  have hsplit {names : List String} (hne : names ≠ []) (hplain : ∀ name ∈ names, '.' ∉ name.toList) :
      (".".intercalate names).toList.splitOn '.' = names.map String.toList := by
    rw [String.toList_intercalate]
    apply List.splitOn_intercalate
    · intro chars hchars
      obtain ⟨name, hname, rfl⟩ := List.mem_map.mp hchars
      exact hplain name hname
    · simpa using hne
  -- strings are not cancelled on the left, their characters are
  have hjoined : ".".intercalate names = ".".intercalate names' := by
    apply String.toList_inj.mp
    have hchars := congrArg String.toList h
    simpa only [String.toList_append, List.append_cancel_left_eq] using hchars
  have hmap : names.map String.toList = names'.map String.toList := by
    rw [← hsplit hne hplain, ← hsplit hne' hplain', hjoined]
  exact (List.map_inj_right fun _ _ => String.toList_inj.mp).mp hmap

/-- Unrolling lists exactly the leaves of the structure, depth first in the order of declaration. Each is
the member as it was declared, named by its path. If in each structure that is reached the names are
distinct and have no dots in them, the names of the leaves are distinct. -/
theorem unroll_faithful (h : t.unroll root s = .ok leaves) :
    (∃ entries, Lists (t.BuiltinAt s) entries ∧
      leaves = entries.map fun entry => entry.2.unrolled root) ∧
    ((∀ inner, ReflTransGen t.Nests s inner → inner.PlainMembers) →
      (leaves.map (·.name)).Nodup) := by
  obtain ⟨entries, hentries, hleaves⟩ := unrolls_leavesWithin h
  refine ⟨⟨entries, hentries, hleaves⟩, ?_⟩
  intro hplain
  rw [hleaves, List.map_map]
  apply List.pairwise_map.mpr
  refine hentries.sorted.imp_of_mem ?_
  intro a b ha hb hlt hname
  have hleaf := (hentries.mem_iff a.1 a.2).mp ha
  have hleaf' := (hentries.mem_iff b.1 b.2).mp hb
  have hdotless {path : List Nat} {leaf : NestedMember} (hleaf : t.BuiltinAt s path leaf) :
      ∀ name ∈ leaf.names, '.' ∉ name.toList := by
    intro name hmem
    obtain ⟨inner, hreach, member, hmember, rfl⟩ := hleaf.of_mem_names hmem
    exact (hplain inner hreach).2 member hmember
  have hnames := dotted_injective hleaf.names_ne_nil hleaf'.names_ne_nil (hdotless hleaf)
    (hdotless hleaf') hname
  have hpath := hleaf.path_unique hleaf' (fun inner hreach => (hplain inner hreach).1) hnames
  rw [hpath] at hlt
  exact List.lt_irrefl _ hlt

/-- What is below a structure is registered. -/
theorem mem_of_nests {outer inner : Structure} (h : t.Nests outer inner) :
    .aggregate inner ∈ t.symbols := by
  obtain ⟨_, _, _, _, hinner⟩ := h
  exact mem_of_get? (resolveAggregate_eq_ok.mp hinner)

end SymbolTable

def gate : Location := ⟨"manor.fx", 4⟩

def lamp : Structure :=
  ⟨"Lamp", gate, [⟨"color", .builtin .float4, none, gate, .input, none, none⟩,
    ⟨"range", .builtin .float, none, gate, .input, some 2, none⟩]⟩

def hall : Structure :=
  ⟨"Hall", gate, [⟨"left", .user ⟨"Lamp", by decide⟩, none, gate, .input, none, none⟩,
    ⟨"right", .user ⟨"Lamp", by decide⟩, some 1, gate, .input, none, none⟩]⟩

/-- A manor has three lamps, two of them in its hall. -/
def manor : Structure :=
  ⟨"Manor", gate, [⟨"hall", .user ⟨"Hall", by decide⟩, none, gate, .input, none, none⟩,
    ⟨"porch", .user ⟨"Lamp", by decide⟩, none, gate, .input, none, none⟩,
    ⟨"candles", .builtin .float, some 4, gate, .both, none, some 1⟩]⟩

def manorTable : SymbolTable := ⟨[.aggregate lamp, .aggregate hall, .aggregate manor]⟩

def manorLeaves : List Parameter :=
  [⟨"m.hall.left.color", .builtin .float4, none, gate, .input, none, none⟩,
    ⟨"m.hall.left.range", .builtin .float, none, gate, .input, some 2, none⟩,
    ⟨"m.hall.right.color", .builtin .float4, none, gate, .input, none, none⟩,
    ⟨"m.hall.right.range", .builtin .float, none, gate, .input, some 2, none⟩,
    ⟨"m.porch.color", .builtin .float4, none, gate, .input, none, none⟩,
    ⟨"m.porch.range", .builtin .float, none, gate, .input, some 2, none⟩,
    ⟨"m.candles", .builtin .float, some 4, gate, .both, none, some 1⟩]

theorem unroll_manor : manorTable.unroll "m" manor = .ok manorLeaves := by decide +kernel

theorem of_reached_manor {inner : Structure} (h : ReflTransGen manorTable.Nests manor inner) :
    inner = lamp ∨ inner = hall ∨ inner = manor := by
  have hmem : .aggregate inner ∈ manorTable.symbols := by
    rcases h.cases_tail with rfl | ⟨outer, -, hnests⟩
    · decide
    · exact SymbolTable.mem_of_nests hnests
  simpa [manorTable] using hmem

/-- The leaves of the three lamps have different names, and the candles are still an array. -/
theorem unroll_faithful_manor :
    manorTable.unroll "m" manor = .ok manorLeaves ∧
    (∃ entries, Lists (manorTable.BuiltinAt manor) entries ∧
      manorLeaves = entries.map fun entry => entry.2.unrolled "m") ∧
    (manorLeaves.map (·.name)).Nodup := by
  have hplain : ∀ inner, ReflTransGen manorTable.Nests manor inner → inner.PlainMembers := by
    intro inner hreach
    unfold Structure.PlainMembers
    rcases of_reached_manor hreach with rfl | rfl | rfl <;> decide
  obtain ⟨hentries, hnames⟩ := SymbolTable.unroll_faithful unroll_manor
  exact ⟨unroll_manor, hentries, hnames hplain⟩

end EffectLink
