import Mathlib.Algebra.Group.Nat.Defs
import EffectLink.Proofs.ShaderPool

namespace EffectLink.IndexedPool

/-- The pool without its index. -/
def view (p : IndexedPool) : Pool := ⟨p.shaders⟩

/-- The pool that is left when `requests` have been interned one after the other. -/
def internAll (p : IndexedPool) (requests : List Shader) : IndexedPool :=
  requests.foldl (fun p s => (p.intern s).1) p

/-- Each key has in the index the id of the shader that it is found at, and a key without a shader is
not in the index. -/
def Indexed (p : IndexedPool) : Prop :=
  ∀ stage identity, p.lookup stage identity = (p.view.lookup stage identity).map UInt32.ofNat

theorem indexed_empty : empty.Indexed := fun _ _ => rfl

/-- Interning makes its key known and leaves every other key as it was. This is said of the index alone:
it holds whether or not the index fits the shaders. -/
theorem lookup_intern (p : IndexedPool) (s : Shader) (stage : Stage) (identity : String) :
    (p.intern s).1.lookup stage identity =
      if s.hasKey stage identity then some (p.intern s).2 else p.lookup stage identity := by
  unfold intern
  cases hfound : p.lookup s.stage s.identity with
  | some id =>
    dsimp only
    split
    · next hkey =>
      obtain ⟨rfl, rfl⟩ := Shader.hasKey_eq_true.mp hkey
      exact hfound
    · rfl
  | none =>
    have hfirst : ((stage, identity) == (s.stage, s.identity)) = s.hasKey stage identity := by
      rw [Bool.eq_iff_iff, beq_iff_eq, Shader.hasKey_eq_true, Prod.mk.injEq]
      exact and_congr eq_comm eq_comm
    dsimp only
    unfold lookup
    rw [List.lookup_cons, hfirst]
    cases s.hasKey stage identity with
    | true => rfl
    | false => rfl

theorem size_intern (p : IndexedPool) (s : Shader) :
    (p.intern s).1.size = p.size + if p.lookup s.stage s.identity = none then 1 else 0 := by
  unfold intern
  cases p.lookup s.stage s.identity with
  | some id => rfl
  | none => exact List.length_append

section Step

variable {p : IndexedPool} (h : p.Indexed) (s : Shader)

include h

/-- With a fitting index, interning decides as it does without one: both find the key, or both add the
shader. -/
theorem Indexed.intern_eq :
    (p.intern s).1.view = (p.view.intern s).1 ∧
      (p.intern s).2 = UInt32.ofNat (p.view.intern s).2 := by
  unfold IndexedPool.intern Pool.intern
  rw [h s.stage s.identity]
  cases p.view.lookup s.stage s.identity with
  | some id => exact ⟨rfl, rfl⟩
  | none => exact ⟨rfl, rfl⟩

theorem Indexed.intern : (p.intern s).1.Indexed := by
  obtain ⟨hview, hid⟩ := h.intern_eq s
  intro stage identity
  rw [lookup_intern, hview, Pool.lookup_intern, hid]
  split
  · rfl
  · exact h stage identity

end Step

/-- A whole run keeps the index fitting, and ends with the shaders that a run without an index ends
with. -/
theorem Indexed.internAll {p : IndexedPool} (h : p.Indexed) (requests : List Shader) :
    (p.internAll requests).Indexed ∧ (p.internAll requests).view = p.view.internAll requests := by
  induction requests generalizing p with
  | nil => exact ⟨h, rfl⟩
  | cons s requests ih =>
    obtain ⟨hindexed, hview⟩ := ih (h.intern s)
    refine ⟨hindexed, ?_⟩
    rw [(h.intern_eq s).1] at hview
    exact hview

/-- The stored pool is in order: the index fits, no two shaders have the same key, and every place can
be named by an id. -/
structure Sound (p : IndexedPool) : Prop where
  indexed : p.Indexed
  distinct : p.view.Distinct
  small : p.size ≤ 2 ^ 32

section Sound

variable {p : IndexedPool} (h : p.Sound)

include h

theorem Sound.toNat_ofNat {id : Nat} {s : Shader} (hs : p.view.get? id = some s) :
    (UInt32.ofNat id).toNat = id := by
  have hid : id < p.size := (List.getElem?_eq_some_iff.mp hs).1
  exact UInt32.toNat_ofNat_of_lt' (Nat.lt_of_lt_of_le hid h.small)

theorem Sound.lookup_eq_some {stage : Stage} {identity : String} {id : UInt32} :
    p.lookup stage identity = some id ↔
      ∃ s, p.get? id = some s ∧ s.stage = stage ∧ s.identity = identity := by
  rw [h.indexed stage identity, Option.map_eq_some_iff]
  constructor
  · rintro ⟨n, hn, rfl⟩
    obtain ⟨s, hs, hkey⟩ := Pool.get?_of_lookup hn
    refine ⟨s, ?_, hkey⟩
    change p.view.get? (UInt32.ofNat n).toNat = some s
    rw [h.toNat_ofNat hs]
    exact hs
  · rintro ⟨s, hs, hkey⟩
    exact ⟨id.toNat, h.distinct.lookup_eq_some.mpr ⟨s, hs, hkey⟩, UInt32.ofNat_toNat⟩

/-- Read as a number, the id of a key is the place that the pool without an index finds. -/
theorem Sound.lookup_view (stage : Stage) (identity : String) :
    p.view.lookup stage identity = (p.lookup stage identity).map UInt32.toNat := by
  rw [h.indexed stage identity]
  cases hn : p.view.lookup stage identity with
  | none => rfl
  | some n =>
    obtain ⟨s, hs, -⟩ := Pool.get?_of_lookup hn
    rw [Option.map_some, Option.map_some, h.toNat_ofNat hs]

/-- One more shader can be interned as long as there is an id for it. -/
theorem Sound.intern (hroom : p.size < 2 ^ 32) (s : Shader) : (p.intern s).1.Sound := by
  obtain ⟨hview, -⟩ := h.indexed.intern_eq s
  refine ⟨h.indexed.intern s, ?_, ?_⟩
  · rw [hview]
    exact h.distinct.intern s
  · have hsize := p.size_intern s
    split at hsize <;> omega

/-- The id that interning gives, read as a number, is the place that the pool without an index gives. -/
theorem Sound.id_intern (hroom : p.size < 2 ^ 32) (s : Shader) :
    (p.view.intern s).2 = (p.intern s).2.toNat := by
  obtain ⟨hview, hid⟩ := h.indexed.intern_eq s
  obtain ⟨found, hfound, -⟩ := p.view.get?_intern s
  rw [← hview] at hfound
  rw [hid, (h.intern hroom s).toNat_ofNat hfound]

theorem Sound.get?_intern {id : UInt32} {a : Shader} (ha : p.get? id = some a) (s : Shader) :
    (p.intern s).1.get? id = some a := by
  have hkept := (p.view.extends_intern s).get? ha
  rw [← (h.indexed.intern_eq s).1] at hkept
  exact hkept

end Sound

/-- What interning `request` in `pool` should come to: the pool `later` and the id `id`. -/
structure Interned (pool : IndexedPool) (request : Shader) (later : IndexedPool) (id : UInt32) :
    Prop where
  keyed : ∃ s, later.get? id = some s ∧ s.stage = request.stage ∧ s.identity = request.identity
  added : pool.lookup request.stage request.identity = none → later.get? id = some request
  records : ∀ old s, pool.get? old = some s → later.get? old = some s
  ids : ∀ stage identity old, pool.lookup stage identity = some old →
    later.lookup stage identity = some old
  size : later.size = pool.size + if pool.lookup request.stage request.identity = none then 1 else 0

theorem Sound.interned {p : IndexedPool} (h : p.Sound) (hroom : p.size < 2 ^ 32) (request : Shader) :
    Interned p request (p.intern request).1 (p.intern request).2 := by
  have hlater := h.intern hroom request
  have hown : (p.intern request).1.lookup request.stage request.identity =
      some (p.intern request).2 := by
    rw [lookup_intern, if_pos (Shader.hasKey_eq_true.mpr ⟨rfl, rfl⟩)]
  refine ⟨hlater.lookup_eq_some.mp hown, fun habsent => ?_, fun old s hs => h.get?_intern hs request,
    fun stage identity old hold => ?_, p.size_intern request⟩
  · have hlast : (UInt32.ofNat p.size).toNat = p.shaders.length := UInt32.toNat_ofNat_of_lt' hroom
    unfold IndexedPool.intern
    rw [habsent]
    change (p.shaders ++ [request])[(UInt32.ofNat p.size).toNat]? = some request
    rw [hlast]
    exact List.getElem?_concat_length
  · obtain ⟨s, hs, hkey⟩ := h.lookup_eq_some.mp hold
    exact hlater.lookup_eq_some.mpr ⟨s, h.get?_intern hs request, hkey⟩

/-- Fewer requests than there are ids leave room for one more. -/
theorem sound_internAll {requests : List Shader} (h : requests.length < 2 ^ 32) :
    (empty.internAll requests).Sound ∧ (empty.internAll requests).size < 2 ^ 32 := by
  obtain ⟨hindexed, hview⟩ := indexed_empty.internAll requests
  have hsize : (empty.internAll requests).size < 2 ^ 32 := by
    have hbound := Pool.empty.size_internAll_le requests
    have heq : (empty.internAll requests).size = (Pool.empty.internAll requests).size :=
      congrArg Pool.size hview
    have hzero : Pool.empty.size = 0 := rfl
    omega
  refine ⟨⟨hindexed, ?_, Nat.le_of_lt hsize⟩, hsize⟩
  rw [hview]
  exact Pool.distinct_empty.internAll requests

/-- After fewer than 2^32 requests the stored pool is in order, and the next request is interned as it
should be. A key is found at an id exactly if the shader with that id has the key, and no two shaders
have the same key. The pool without an index has the same shaders, and gives the same ids as numbers. -/
theorem internAll_consistent (requests : List Shader) (h : requests.length < 2 ^ 32) :
    (∀ stage identity id, (empty.internAll requests).lookup stage identity = some id ↔
      ∃ s, (empty.internAll requests).get? id = some s ∧ s.stage = stage ∧ s.identity = identity) ∧
    (∀ (i j : Nat) (a b : Shader), (empty.internAll requests).shaders[i]? = some a →
      (empty.internAll requests).shaders[j]? = some b →
      a.stage = b.stage → a.identity = b.identity → i = j) ∧
    (∀ request, Interned (empty.internAll requests) request
      ((empty.internAll requests).intern request).1 ((empty.internAll requests).intern request).2) ∧
    (empty.internAll requests).shaders = (Pool.empty.internAll requests).shaders ∧
    (∀ stage identity, (Pool.empty.internAll requests).lookup stage identity =
      ((empty.internAll requests).lookup stage identity).map UInt32.toNat) ∧
    ∀ request, ((Pool.empty.internAll requests).intern request).2 =
      ((empty.internAll requests).intern request).2.toNat := by
  obtain ⟨hsound, hroom⟩ := sound_internAll h
  have hview : (empty.internAll requests).view = Pool.empty.internAll requests :=
    (indexed_empty.internAll requests).2
  refine ⟨fun stage identity id => hsound.lookup_eq_some, fun i j a b ha hb hstage hidentity => ?_,
    hsound.interned hroom, congrArg Pool.shaders hview, fun stage identity => ?_, fun request => ?_⟩
  · exact hsound.distinct.id_unique ha hb ⟨hstage, hidentity⟩
  · rw [← hview]
    exact hsound.lookup_view stage identity
  · rw [← hview]
    exact hsound.id_intern hroom request

def rill (stage : Stage) (identity flags : String) : Shader :=
  { stage, identity, compileFlags := flags, bindings := ∅
    function := ⟨identity, ⟨"brook.json", 1⟩, .builtin .void, [], true, .none, "void main() \x7b\x7d"⟩ }

/-- One identity at two stages, and the first shader once more with other flags. -/
def brook : List Shader :=
  [rill .vertex "flow" "", rill .pixel "flow" "", rill .vertex "flow" "/O"]

/-- Three requests leave two shaders; the next request adds a third one. -/
theorem internAll_consistent_brook :
    brook.length < 2 ^ 32 ∧ (empty.internAll brook).size = 2 ∧
    (empty.internAll brook).lookup .pixel "flow" = some 1 ∧
    (empty.internAll brook).get? 0 = some (rill .vertex "flow" "") ∧
    (∀ j, (empty.internAll brook).shaders[j]? = some (rill .vertex "flow" "") → 0 = j) ∧
    ((empty.internAll brook).intern (rill .pixel "foam" "")).1.get? 2 = some (rill .pixel "foam" "") ∧
    ((empty.internAll brook).intern (rill .pixel "foam" "")).1.size = 3 ∧
    (Pool.empty.internAll brook).lookup .pixel "flow" = some 1 := by
  have hfew : brook.length < 2 ^ 32 := by decide
  have hfirst : (empty.internAll brook).get? 0 = some (rill .vertex "flow" "") := by decide
  have hsecond : (empty.internAll brook).get? 1 = some (rill .pixel "flow" "") := by decide
  have habsent : (empty.internAll brook).lookup .pixel "foam" = none := by decide
  have hid : ((empty.internAll brook).intern (rill .pixel "foam" "")).2 = 2 := by decide
  obtain ⟨hlookup, hdistinct, hintern, -, hplain, -⟩ := internAll_consistent brook hfew
  have hfound := (hlookup .pixel "flow" 1).mpr ⟨_, hsecond, rfl, rfl⟩
  have hfoam := hintern (rill .pixel "foam" "")
  have hadded := hfoam.added habsent
  rw [hid] at hadded
  refine ⟨hfew, by decide, hfound, hfirst, fun j hj => hdistinct 0 j _ _ hfirst hj rfl rfl, hadded,
    hfoam.size.trans (congrArg (2 + ·) (if_pos habsent)), ?_⟩
  · rw [hplain, hfound]
    rfl

end EffectLink.IndexedPool
