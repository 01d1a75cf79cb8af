import EffectLink.Linker

namespace EffectLink

namespace Queue

variable {q f m : Queue} {d : Diagnostic}

/-- Everything that can happen to a diagnostic: it is a duplicate, or an error past the limit, or it is
counted and kept. -/
theorem add_cases (q : Queue) (d : Diagnostic) :
    (q.seen d = true ∧ q.add d = q) ∨
    (q.seen d = false ∧ d.isError = true ∧ q.limitReached = true ∧
      q.add d = { q with errors := q.errors + 1, dropped := q.dropped + 1 }) ∨
    (q.seen d = false ∧ (d.isError = true → q.limitReached = false) ∧
      q.add d = { q with
        errors := q.errors + d.isError.toNat
        warnings := q.warnings + d.isWarning.toNat }.keep d) := by
  unfold add offer Diagnostic.isError Diagnostic.isWarning
  cases q.seen d with
  | true => exact Or.inl ⟨rfl, rfl⟩
  | false =>
    refine Or.inr ?_
    cases d.severity with
    | error =>
      cases q.limitReached with
      | true => exact Or.inl ⟨rfl, rfl, rfl, rfl⟩
      | false => exact Or.inr ⟨rfl, fun _ => rfl, rfl⟩
    | warning => exact Or.inr ⟨rfl, fun h => absurd h (by decide), rfl⟩
    | note => exact Or.inr ⟨rfl, fun h => absurd h (by decide), rfl⟩

theorem seen_of_not_mem (h : d ∉ q.remembered) : q.seen d = false := by
  unfold seen
  rw [Bool.and_eq_false_iff]
  exact Or.inr (Bool.eq_false_iff.mpr fun hmem => h (List.contains_iff_mem.mp hmem))

/-- An error that is not there yet is counted, and kept if there is room. -/
theorem add_error (h : d ∉ q.remembered) (hd : d.severity = .error) :
    q.add d =
      if q.limitReached then { q with errors := q.errors + 1, dropped := q.dropped + 1 }
      else { q with errors := q.errors + 1 }.keep d := by
  unfold add offer
  rw [seen_of_not_mem h, hd]
  cases q.limitReached <;> rfl

/-- Anything else that is not there yet is kept. -/
theorem add_other (h : d ∉ q.remembered) (hd : d.severity ≠ .error) :
    q.add d = { q with
      warnings := if d.severity = Severity.warning then q.warnings + 1 else q.warnings }.keep d := by
  unfold add offer
  rw [seen_of_not_mem h]
  cases hs : d.severity with
  | error => exact absurd hs hd
  | warning => rfl
  | note => rfl

theorem mem_kept_add {a : Diagnostic} (h : a ∈ (q.add d).kept) : a ∈ q.kept ∨ a = d := by
  rcases q.add_cases d with ⟨-, hadd⟩ | ⟨-, -, -, hadd⟩ | ⟨-, -, hadd⟩
  · rw [hadd] at h
    exact Or.inl h
  · rw [hadd] at h
    exact Or.inl h
  · rw [hadd] at h
    exact (List.mem_append.mp h).imp_right List.mem_singleton.mp

theorem mem_remembered_add {a : Diagnostic} (h : a ∈ (q.add d).remembered) :
    a ∈ q.remembered ∨ a = d := by
  rcases q.add_cases d with ⟨-, hadd⟩ | ⟨-, -, -, hadd⟩ | ⟨-, -, hadd⟩
  · rw [hadd] at h
    exact Or.inl h
  · rw [hadd] at h
    exact Or.inl h
  · rw [hadd, keep] at h
    dsimp only at h
    split at h
    · exact (List.mem_cons.mp h).symm
    · exact Or.inl h

/-- Nothing that a report does not hold comes out of it, as far as one diagnostic at a time goes. -/
theorem mem_addAll {view : Queue → List Diagnostic}
    (hadd : ∀ {q d a}, a ∈ view (q.add d) → a ∈ view q ∨ a = d) {a : Diagnostic}
    {ds : List Diagnostic} (h : a ∈ view (q.addAll ds)) : a ∈ view q ∨ a ∈ ds := by
  induction ds generalizing q with
  | nil => exact Or.inl h
  | cons d ds ih =>
    rcases ih h with h | h
    · rcases hadd h with h | rfl
      · exact Or.inl h
      · exact Or.inr List.mem_cons_self
    · exact Or.inr (List.mem_cons_of_mem _ h)

theorem mem_kept_addAll {a : Diagnostic} {ds : List Diagnostic} (h : a ∈ (q.addAll ds).kept) :
    a ∈ q.kept ∨ a ∈ ds :=
  mem_addAll mem_kept_add h

theorem mem_remembered_addAll {a : Diagnostic} {ds : List Diagnostic}
    (h : a ∈ (q.addAll ds).remembered) : a ∈ q.remembered ∨ a ∈ ds :=
  mem_addAll mem_remembered_add h

theorem config_add (q : Queue) (d : Diagnostic) : (q.add d).config = q.config := by
  rcases q.add_cases d with ⟨-, hadd⟩ | ⟨-, -, -, hadd⟩ | ⟨-, -, hadd⟩
  · rw [hadd]
  · rw [hadd]
  · rw [hadd]
    rfl

theorem config_addAll (q : Queue) (ds : List Diagnostic) : (q.addAll ds).config = q.config := by
  induction ds generalizing q with
  | nil => rfl
  | cons d ds ih => exact (ih (q.add d)).trans (config_add q d)

/-- A queue has become another by receiving diagnostics of one sort only, directly or through queues
that are merged into it. -/
inductive Receives (sort : Diagnostic → Prop) : Queue → Queue → Prop
  | refl (q : Queue) : Receives sort q q
  | add {q later : Queue} {d : Diagnostic} (h : Receives sort q later) (hd : sort d) :
    Receives sort q (later.add d)
  | merge {q later filled : Queue} {config : QueueConfig} (h : Receives sort q later)
    (hfilled : Receives sort (empty config) filled) : Receives sort q (later.merge filled)

section Receives

variable {sort : Diagnostic → Prop}

theorem Receives.trans (h : q.Receives sort f) (h' : f.Receives sort m) : q.Receives sort m := by
  induction h' with
  | refl => exact h
  | add _ hd ih => exact .add (ih h) hd
  | merge _ hfilled ih _ => exact .merge (ih h) hfilled

theorem receives_addAll {ds : List Diagnostic} (h : ∀ d ∈ ds, sort d) :
    q.Receives sort (q.addAll ds) := by
  induction ds generalizing q with
  | nil => exact .refl q
  | cons d ds ih =>
    obtain ⟨hd, hds⟩ := List.forall_mem_cons.mp h
    have hfirst : q.Receives sort (q.add d) := .add (.refl q) hd
    exact hfirst.trans (ih hds)

theorem Receives.mono {sort' : Diagnostic → Prop} (h : q.Receives sort m)
    (hsort : ∀ d, sort d → sort' d) : q.Receives sort' m := by
  induction h with
  | refl q => exact .refl q
  | add _ hd ih => exact .add ih (hsort _ hd)
  | merge _ _ ih ihfilled => exact .merge ih ihfilled

/-- What is kept in the end was there before or has been received. -/
theorem Receives.mem_kept (h : q.Receives sort m) (hd : d ∈ m.kept) : d ∈ q.kept ∨ sort d := by
  induction h with
  | refl => exact Or.inl hd
  | add _ hsort ih =>
    rcases mem_kept_add hd with hd | rfl
    · exact ih hd
    · exact Or.inr hsort
  | merge _ _ ih ihfilled =>
    rcases mem_kept_addAll hd with hd | hd
    · exact ih hd
    · exact Or.inr ((ihfilled hd).resolve_left List.not_mem_nil)

/-- What is remembered in the end was there before or has been received. -/
theorem Receives.mem_remembered (h : q.Receives sort m) (hd : d ∈ m.remembered) :
    d ∈ q.remembered ∨ sort d := by
  induction h with
  | refl => exact Or.inl hd
  | add _ hsort ih =>
    rcases mem_remembered_add hd with hd | rfl
    · exact ih hd
    · exact Or.inr hsort
  | merge _ hfilled ih _ =>
    rcases mem_remembered_addAll hd with hd | hd
    · exact ih hd
    · exact Or.inr ((hfilled.mem_kept hd).resolve_left List.not_mem_nil)

end Receives

/-- A fork `f` of `q`, and `m`, which has taken the same diagnostics directly. -/
structure Tracks (q f m : Queue) : Prop where
  merged : q.merge f = m
  config : f.config = m.config
  errors : m.errors = q.errors + f.errors
  dropped : f.limitReached = false → f.dropped = 0

theorem tracks_fork (q : Queue) : q.Tracks q.fork q := ⟨rfl, rfl, rfl, fun _ => rfl⟩

theorem addAll_append (q : Queue) (ds ds' : List Diagnostic) :
    q.addAll (ds ++ ds') = (q.addAll ds).addAll ds' :=
  List.foldl_append

theorem addAll_concat (q : Queue) (ds : List Diagnostic) (d : Diagnostic) :
    q.addAll (ds ++ [d]) = (q.addAll ds).add d :=
  q.addAll_append ds [d]

theorem limitReached_mono (hconfig : f.config = m.config) (hle : f.errors ≤ m.errors)
    (h : f.limitReached = true) : m.limitReached = true := by
  unfold limitReached at h ⊢
  rw [Bool.and_eq_true, decide_eq_true_eq] at h ⊢
  rw [← hconfig]
  exact ⟨h.1, Nat.le_trans h.2 hle⟩

theorem errors_add_error (h : d ∉ q.remembered) (hd : d.severity = .error) :
    (q.add d).errors = q.errors + 1 := by
  rw [add_error h hd]
  split <;> rfl

/-- One more diagnostic, which neither the fork nor the queue keeps yet. -/
theorem Tracks.add (h : q.Tracks f m) (hf : d ∉ f.remembered) (hm : d ∉ m.remembered) :
    q.Tracks (f.add d) (m.add d) := by
  have hfresh : d ∉ (q.addAll f.kept).remembered := by
    rw [← h.merged] at hm
    exact hm
  have hconfig : (f.add d).config = (m.add d).config := by
    rw [config_add, config_add, h.config]
  by_cases hd : d.severity = .error
  · have herrors : (m.add d).errors = q.errors + (f.add d).errors := by
      rw [errors_add_error hm hd, errors_add_error hf hd, h.errors, Nat.add_assoc]
    cases hlimit : f.limitReached with
    | true =>
      -- the fork drops it: the queue has no room either, and counts it on merging
      have hfull : m.limitReached = true := by
        refine limitReached_mono h.config ?_ hlimit
        rw [h.errors]
        exact Nat.le_add_left _ _
      refine ⟨?_, hconfig, herrors, fun hroom => ?_⟩
      · rw [add_error hf hd, add_error hm hd, hlimit, hfull, ← h.merged]
        rfl
      · have hfull' : (f.add d).limitReached = true := by
          refine limitReached_mono (config_add f d).symm ?_ hlimit
          rw [errors_add_error hf hd]
          exact Nat.le_add_right _ _
        rw [hfull'] at hroom
        contradiction
    | false =>
      -- the fork keeps it, so it has dropped nothing, and the queue is offered it on merging
      have hnone : f.dropped = 0 := h.dropped hlimit
      have hdirect : m = q.addAll f.kept := by
        rw [← h.merged, merge, hnone]
        rfl
      have hadd : f.add d = { f with errors := f.errors + 1 }.keep d := by
        rw [add_error hf hd, hlimit]
        rfl
      refine ⟨?_, hconfig, herrors, fun _ => ?_⟩
      · rw [hadd, merge, keep, addAll_concat, ← hdirect]
        dsimp only
        rw [hnone]
        rfl
      · rw [hadd]
        exact hnone
  · rw [add_other hf hd] at hconfig ⊢
    refine ⟨?_, hconfig, ?_, h.dropped⟩
    · rw [merge, keep, addAll_concat, add_other hfresh hd, add_other hm hd, ← h.merged]
      rfl
    · rw [add_other hm hd]
      exact h.errors

/-- A whole report without repetition. -/
theorem Tracks.addAll {ds : List Diagnostic} (h : q.Tracks f m) (hnodup : ds.Nodup)
    (hf : ∀ d ∈ ds, d ∉ f.remembered) (hm : ∀ d ∈ ds, d ∉ m.remembered) :
    q.Tracks (f.addAll ds) (m.addAll ds) := by
  induction ds generalizing f m with
  | nil => exact h
  | cons d ds ih =>
    obtain ⟨hd, hnodup⟩ := List.nodup_cons.mp hnodup
    have hfresh {r : Queue} (hr : ∀ a ∈ d :: ds, a ∉ r.remembered) :
        ∀ a ∈ ds, a ∉ (r.add d).remembered := by
      intro a ha hmem
      rcases mem_remembered_add hmem with hmem | rfl
      · exact hr a (List.mem_cons_of_mem _ ha) hmem
      · exact hd ha
    exact ih (h.add (hf d List.mem_cons_self) (hm d List.mem_cons_self)) hnodup (hfresh hf) (hfresh hm)

theorem merge_fork {ds : List Diagnostic} (hnodup : ds.Nodup) (hds : ∀ d ∈ ds, d ∉ q.remembered) :
    q.merge (q.fork.addAll ds) = q.addAll ds :=
  ((tracks_fork q).addAll hnodup (fun _ _ => List.not_mem_nil) hds).merged

end Queue

namespace Linker

/-- Reports that share nothing, with each other or with the queue, can go through forks. -/
theorem reportMerged_eq {q : Queue} {reports : List (List Diagnostic)}
    (hnodup : reports.flatten.Nodup) (hreports : ∀ d ∈ reports.flatten, d ∉ q.remembered) :
    reportMerged q reports = reportInTurn q reports := by
  -- the forks are those of the first queue, which differ from those of later queues in nothing
  have hforks (start : Queue) (hstart : start.fork = q.fork) :
      (reports.map fun ds => start.fork.addAll ds).foldl Queue.merge q =
        reports.foldl Queue.addAll q := by
    induction reports generalizing q with
    | nil => rfl
    | cons ds reports ih =>
      rw [List.flatten_cons] at hnodup hreports
      obtain ⟨hfirst, hrest, hdisjoint⟩ := List.nodup_append.mp hnodup
      rw [List.map_cons, List.foldl_cons, List.foldl_cons, hstart,
        Queue.merge_fork hfirst fun d hd => hreports d (List.mem_append_left _ hd), ← hstart]
      refine ih hrest (fun d hd hseen => ?_) ?_
      · rcases Queue.mem_remembered_addAll hseen with hseen | hmem
        · exact hreports d (List.mem_append_right _ hd) hseen
        · exact hdisjoint d hmem d hd rfl
      · rw [hstart, Queue.fork, Queue.fork, Queue.config_addAll]
  exact hforks q rfl

end Linker

end EffectLink
