import EffectLink.Disk
import EffectLink.Proofs.TextPieces

namespace EffectLink

theorem bind_eq_ok {ε α β : Type} {x : Except ε α} {f : α → Except ε β} {b : β} :
    x >>= f = .ok b ↔ ∃ a, x = .ok a ∧ f a = .ok b := by
  cases x with
  | error e =>
    constructor
    · intro h
      cases h
    · rintro ⟨_, h, -⟩
      cases h
  | ok a =>
    constructor
    · exact fun h => ⟨a, rfl, h⟩
    · rintro ⟨_, h, hf⟩
      cases h
      exact hf

namespace Path

theorem names_eq_concat (path : String) :
    names path = (names path).dropLast ++ [(names path).getLastD ""] := by
  have hne : names path ≠ [] := fun h => Text.pieces_ne_nil _ _ (List.map_eq_nil_iff.mp h)
  rw [List.getLastD_eq_getLast?, List.getLast?_eq_some_getLast hne, Option.getD_some,
    List.dropLast_concat_getLast hne]

end Path

namespace Disk

variable {d made later : Disk} {place next : Place} {path : String}

theorem lookup_filter_ne {q : Place} (h : q ≠ place) (nodes : List (Place × Node)) :
    (nodes.filter fun entry => entry.1 != place).lookup q = nodes.lookup q := by
  induction nodes with
  | nil => rfl
  | cons entry rest ih =>
    rw [List.filter_cons]
    by_cases hentry : entry.1 = place
    · have hother : (q == entry.1) = false := beq_eq_false_iff_ne.mpr (hentry ▸ h)
      rw [if_neg (fun hkept => bne_iff_ne.mp hkept hentry), List.lookup_cons, hother, ih]
    · rw [if_pos (bne_iff_ne.mpr hentry), List.lookup_cons, List.lookup_cons, ih]

theorem get?_put (d : Disk) (hplace : place ≠ []) (node : Node) (q : Place) :
    (d.put place node).get? q = if q = place then some node else d.get? q := by
  by_cases hq : q = place
  · rw [if_pos hq, hq, get?, if_neg (by rw [List.isEmpty_iff]; exact hplace)]
    exact List.lookup_cons_self
  · rw [if_neg hq]
    unfold get? put
    rw [List.lookup_cons, beq_eq_false_iff_ne.mpr hq, lookup_filter_ne hq]

theorem get?_put_self (d : Disk) (hplace : place ≠ []) (node : Node) :
    (d.put place node).get? place = some node := by
  rw [get?_put d hplace, if_pos rfl]

theorem get?_put_of_ne (d : Disk) (hplace : place ≠ []) (node : Node) {q : Place} (h : q ≠ place) :
    (d.put place node).get? q = d.get? q := by
  rw [get?_put d hplace, if_neg h]

theorem requireDirectory_ok : d.requireDirectory place = .ok () ↔ d.get? place = some .directory := by
  unfold requireDirectory
  cases d.get? place with
  | none => constructor <;> intro h <;> cases h
  | some node =>
    cases node with
    | file contents => constructor <;> intro h <;> cases h
    | directory => exact iff_of_true rfl rfl

theorem isDots_iff {name : String} : isDots name = true ↔ name = "" ∨ name = "." ∨ name = ".." := by
  unfold isDots
  rw [Bool.or_eq_true, Bool.or_eq_true, beq_iff_eq, beq_iff_eq, beq_iff_eq, or_assoc]

/-- A step with a name of its own leads to a node below. -/
theorem step_ok_iff {name : String} (hname : isDots name = false) :
    d.step place name = .ok next ↔ d.get? place = some .directory ∧
      name.utf8ByteSize ≤ longestName ∧ (d.get? (place ++ [name])).isSome = true ∧
      next = place ++ [name] := by
  have hdots : ¬(name = "" ∨ name = "." ∨ name = "..") := fun h =>
    absurd (isDots_iff.mpr h) (Bool.eq_false_iff.mp hname)
  have hhere : ¬(name = "" ∨ name = ".") := fun h => hdots (h.imp_right Or.inl)
  have hup : ¬name = ".." := fun h => hdots (Or.inr (Or.inr h))
  unfold step
  rw [bind_eq_ok]
  constructor
  · rintro ⟨_, hdirectory, h⟩
    rw [if_neg hhere, if_neg hup] at h
    split at h
    · contradiction
    · next hlength =>
      split at h
      · next hnode =>
        cases h
        exact ⟨requireDirectory_ok.mp hdirectory, Nat.le_of_not_lt hlength, hnode, rfl⟩
      · contradiction
  · rintro ⟨hdirectory, hlength, hnode, rfl⟩
    refine ⟨(), requireDirectory_ok.mpr hdirectory, ?_⟩
    rw [if_neg hhere, if_neg hup, if_neg (Nat.not_lt_of_le hlength), if_pos hnode]

theorem follow_append {start : Place} {names : List String} {last : String} :
    d.follow start (names ++ [last]) = .ok next ↔
      ∃ parent, d.follow start names = .ok parent ∧ d.step parent last = .ok next := by
  unfold follow
  rw [List.foldlM_append, bind_eq_ok]
  refine exists_congr fun parent => and_congr_right fun _ => ?_
  rw [List.foldlM_cons, bind_eq_ok]
  constructor
  · rintro ⟨_, hstep, hlast⟩
    cases hlast
    exact hstep
  · exact fun hstep => ⟨next, hstep, rfl⟩

/-- Directories stay directories, and what is there stays there. -/
structure Grows (d later : Disk) : Prop where
  workingDirectory : later.workingDirectory = d.workingDirectory
  directories : ∀ place, d.get? place = some .directory → later.get? place = some .directory
  present : ∀ place, (d.get? place).isSome = true → (later.get? place).isSome = true

theorem Grows.refl (d : Disk) : d.Grows d := ⟨rfl, fun _ h => h, fun _ h => h⟩

theorem Grows.trans (h : d.Grows made) (hlater : made.Grows later) : d.Grows later :=
  ⟨hlater.workingDirectory.trans h.workingDirectory,
    fun place hplace => hlater.directories place (h.directories place hplace),
    fun place hplace => hlater.present place (h.present place hplace)⟩

theorem Grows.step (h : d.Grows later) {name : String} (hstep : d.step place name = .ok next) :
    later.step place name = .ok next := by
  by_cases hname : isDots name = true
  · -- dots lead to directories that have to be there
    obtain ⟨_, hdirectory, hrest⟩ := bind_eq_ok.mp hstep
    refine bind_eq_ok.mpr ⟨(), requireDirectory_ok.mpr ?_, ?_⟩
    · exact h.directories place (requireDirectory_ok.mp hdirectory)
    · rcases isDots_iff.mp hname with rfl | rfl | rfl <;> exact hrest
  · have hname := Bool.eq_false_iff.mpr hname
    obtain ⟨hdirectory, hlength, hnode, hnext⟩ := (step_ok_iff hname).mp hstep
    exact (step_ok_iff hname).mpr
      ⟨h.directories place hdirectory, hlength, h.present _ hnode, hnext⟩

theorem Grows.follow (h : d.Grows later) {start : Place} {names : List String}
    (hfollow : d.follow start names = .ok place) : later.follow start names = .ok place := by
  induction names generalizing start with
  | nil => exact hfollow
  | cons name rest ih =>
    unfold Disk.follow at hfollow ⊢
    rw [List.foldlM_cons, bind_eq_ok] at hfollow ⊢
    obtain ⟨next, hstep, hrest⟩ := hfollow
    exact ⟨next, h.step hstep, ih hrest⟩

theorem Grows.origin (h : d.Grows later) (path : String) : later.origin path = d.origin path := by
  unfold Disk.origin
  rw [h.workingDirectory]

theorem Grows.locate (h : d.Grows later) (hlocate : d.locate path = .ok place) :
    later.locate path = .ok place := by
  unfold Disk.locate at hlocate ⊢
  rw [bind_eq_ok] at hlocate ⊢
  obtain ⟨_, hpath, hfollow⟩ := hlocate
  refine ⟨(), hpath, ?_⟩
  rw [h.origin]
  exact h.follow hfollow

/-- The disks differ in directories that are new. -/
structure AddsDirectories (d made : Disk) : Prop where
  workingDirectory : made.workingDirectory = d.workingDirectory
  nodes : ∀ place, made.get? place = d.get? place ∨
    (d.get? place = none ∧ made.get? place = some .directory)

theorem AddsDirectories.refl (d : Disk) : d.AddsDirectories d := ⟨rfl, fun _ => Or.inl rfl⟩

theorem AddsDirectories.trans (h : d.AddsDirectories made) (hlater : made.AddsDirectories later) :
    d.AddsDirectories later := by
  refine ⟨hlater.workingDirectory.trans h.workingDirectory, fun place => ?_⟩
  rcases hlater.nodes place with hsame | ⟨hnone, hnew⟩
  · rw [hsame]
    exact h.nodes place
  · rcases h.nodes place with hsame | ⟨-, hdirectory⟩
    · exact Or.inr ⟨hsame ▸ hnone, hnew⟩
    · rw [hdirectory] at hnone
      contradiction

theorem AddsDirectories.grows (h : d.AddsDirectories made) : d.Grows made := by
  refine ⟨h.workingDirectory, fun place hplace => ?_, fun place hplace => ?_⟩
  · rcases h.nodes place with hsame | ⟨-, hnew⟩
    · exact hsame.trans hplace
    · exact hnew
  · rcases h.nodes place with hsame | ⟨-, hnew⟩
    · rw [hsame]
      exact hplace
    · rw [hnew]
      rfl

theorem AddsDirectories.file (h : d.AddsDirectories made) {contents : Bytes}
    (hfile : made.get? place = some (.file contents)) : d.get? place = some (.file contents) := by
  rcases h.nodes place with hsame | ⟨-, hnew⟩
  · exact hsame.symm.trans hfile
  · rw [hnew] at hfile
    cases hfile

theorem addsDirectories_makeDirectory (h : d.makeDirectory path = .ok made) :
    d.AddsDirectories made := by
  unfold makeDirectory at h
  obtain ⟨_, -, h⟩ := bind_eq_ok.mp h
  dsimp only at h
  split at h
  · contradiction
  · next last _ =>
    obtain ⟨parent, -, h⟩ := bind_eq_ok.mp h
    split at h
    · contradiction
    · next hfree =>
      cases h
      have hplace : parent ++ [last] ≠ [] :=
        List.append_ne_nil_of_right_ne_nil _ (List.cons_ne_nil _ _)
      refine ⟨rfl, fun place => ?_⟩
      by_cases heq : place = parent ++ [last]
      · rw [heq, get?_put_self d hplace]
        refine Or.inr ⟨?_, rfl⟩
        cases hnode : d.get? (parent ++ [last]) with
        | none => rfl
        | some node =>
          rw [hnode] at hfree
          exact absurd (Bool.or_true _) hfree
      · exact Or.inl (get?_put_of_ne d hplace _ heq)

theorem addsDirectories_ensureDirectory (d : Disk) (path : String) :
    d.AddsDirectories (d.ensureDirectory path).1 := by
  unfold ensureDirectory
  cases hmade : d.makeDirectory path with
  | ok made => exact addsDirectories_makeDirectory hmade
  | error fault => exact .refl d

theorem addsDirectories_makeWithin (fuel : Nat) (d : Disk) (path : String) :
    d.AddsDirectories (makeWithin fuel d path).1 := by
  induction fuel generalizing d path with
  | zero => exact .refl d
  | succ fuel ih =>
    unfold makeWithin
    split
    · exact .refl d
    · split
      · next parent _ _ =>
        have habove := ih d parent
        split
        · next above hmade =>
          rw [hmade] at habove
          exact habove.trans (addsDirectories_ensureDirectory above path)
        · next above fault hmade =>
          rw [hmade] at habove
          exact habove
      · exact addsDirectories_ensureDirectory d path

theorem addsDirectories_makeDirectories (d : Disk) (path : String) :
    d.AddsDirectories (d.makeDirectories path).1 :=
  addsDirectories_makeWithin _ d path

theorem directoryOf_ok {start : Place} {names : List String} {last : String} :
    d.directoryOf start names last = .ok place ↔ d.follow start names.dropLast = .ok place ∧
      d.get? place = some .directory ∧ last.utf8ByteSize ≤ longestName := by
  unfold directoryOf
  rw [bind_eq_ok]
  constructor
  · rintro ⟨parent, hfollow, h⟩
    obtain ⟨_, hdirectory, h⟩ := bind_eq_ok.mp h
    split at h
    · contradiction
    · next hlength =>
      cases h
      exact ⟨hfollow, requireDirectory_ok.mp hdirectory, Nat.le_of_not_lt hlength⟩
  · rintro ⟨hfollow, hdirectory, hlength⟩
    refine ⟨place, hfollow, bind_eq_ok.mpr ⟨(), requireDirectory_ok.mpr hdirectory, ?_⟩⟩
    rw [if_neg (Nat.not_lt_of_le hlength)]

theorem grows_put_file (hplace : place ≠ []) (hfree : d.get? place ≠ some .directory)
    (contents : Bytes) : d.Grows (d.put place (.file contents)) := by
  refine ⟨rfl, fun q hq => ?_, fun q hq => ?_⟩
  · have hne : q ≠ place := by
      rintro rfl
      exact hfree hq
    rw [get?_put_of_ne d hplace _ hne, hq]
  · rw [get?_put d hplace]
    split
    · rfl
    · exact hq

/-- What a write needs: the directory that the last name of the path is looked up in, and that this name
does not lead to a directory. -/
theorem write_ok_iff {contents : Bytes} : d.write path contents = .ok later ↔
    checkPath path = .ok () ∧ ∃ parent,
      let last := (Path.names path).getLastD ""
      d.follow (d.origin path) (Path.names path).dropLast = .ok parent ∧
      d.get? parent = some .directory ∧ last.utf8ByteSize ≤ longestName ∧ isDots last = false ∧
      d.get? (parent ++ [last]) ≠ some .directory ∧
      later = d.put (parent ++ [last]) (.file contents) := by
  unfold write
  rw [bind_eq_ok]
  constructor
  · rintro ⟨_, hpath, h⟩
    dsimp only at h
    obtain ⟨parent, hparent, h⟩ := bind_eq_ok.mp h
    obtain ⟨hfollow, hdirectory, hlength⟩ := directoryOf_ok.mp hparent
    split at h
    · contradiction
    next hname =>
    split at h
    · contradiction
    next hfree =>
    cases h
    exact ⟨hpath, parent, hfollow, hdirectory, hlength, Bool.eq_false_iff.mpr hname, hfree, rfl⟩
  · rintro ⟨hpath, parent, hfollow, hdirectory, hlength, hname, hfree, rfl⟩
    refine ⟨(), hpath, bind_eq_ok.mpr
      ⟨parent, directoryOf_ok.mpr ⟨hfollow, hdirectory, hlength⟩, ?_⟩⟩
    rw [if_neg (Bool.eq_false_iff.mp hname)]
    split
    · next hdirectory => exact absurd hdirectory hfree
    · rfl

/-- A file that is written stands where its path leads afterwards, and nothing else has changed. -/
theorem write_ok {contents : Bytes} (h : made.write path contents = .ok later) :
    ∃ place, place ≠ [] ∧ made.get? place ≠ some .directory ∧
      later = made.put place (.file contents) ∧ later.locate path = .ok place := by
  obtain ⟨hpath, parent, hfollow, hdirectory, hlength, hname, hfree, rfl⟩ := write_ok_iff.mp h
  have hnames := Path.names_eq_concat path
  generalize (Path.names path).getLastD "" = last at hlength hname hfree hnames
  have hplace : parent ++ [last] ≠ [] :=
    List.append_ne_nil_of_right_ne_nil _ (List.cons_ne_nil _ _)
  -- the path leads through the same directories as before, and then to the new file
  have hgrows := grows_put_file hplace hfree contents
  refine ⟨_, hplace, hfree, rfl, bind_eq_ok.mpr ⟨(), hpath, ?_⟩⟩
  rw [hgrows.origin, hnames]
  refine follow_append.mpr ⟨parent, hgrows.follow hfollow, ?_⟩
  refine (step_ok_iff hname).mpr ⟨hgrows.directories _ hdirectory, hlength, ?_, rfl⟩
  rw [get?_put_self made hplace]
  rfl

/-- What a write below a directory can come to: it fails, and directories may have been made, or they
are made and the file is written. -/
theorem writeBelow_cases (d : Disk) (directory path : String) (contents : Bytes) :
    ((∃ fault, (d.writeBelow directory path contents).2 = .error fault) ∧
      d.AddsDirectories (d.writeBelow directory path contents).1) ∨
    ((d.writeBelow directory path contents).2 = .ok () ∧ ∃ made, d.AddsDirectories made ∧
      made.write path contents = .ok (d.writeBelow directory path contents).1) := by
  have hmade := d.addsDirectories_makeDirectories directory
  unfold writeBelow
  rcases hdirectory : d.makeDirectories directory with ⟨made, outcome⟩
  rw [hdirectory] at hmade
  cases outcome with
  | error fault => exact Or.inl ⟨⟨fault, rfl⟩, hmade⟩
  | ok _ =>
    dsimp only
    cases hwritten : made.write path contents with
    | error fault => exact Or.inl ⟨⟨fault, rfl⟩, hmade⟩
    | ok written => exact Or.inr ⟨rfl, made, hmade, hwritten⟩

/-- The disk after an attempt to write a file, given by its path and contents, below a directory. -/
def store (directory : String) (d : Disk) (file : String × Bytes) (medium : Medium := writeBelow) :
    Disk :=
  (medium d directory file.1 file.2).1

/-- The disk after an attempt to write some files in turn. -/
def storeAll (directory : String) (d : Disk) (files : List (String × Bytes))
    (medium : Medium := writeBelow) : Disk :=
  files.foldl (fun d file => d.store directory file medium) d

/-- The faults that are met when some files are written in turn. -/
def storeFaults (directory : String) (d : Disk) (files : List (String × Bytes))
    (medium : Medium := writeBelow) : List FileError :=
  match files with
  | [] => []
  | file :: rest =>
    match medium d directory file.1 file.2 with
    | (next, .ok _) => storeFaults directory next rest medium
    | (next, .error fault) => fault :: storeFaults directory next rest medium

theorem storeAll_append (directory : String) (d : Disk) (files more : List (String × Bytes))
    (medium : Medium) :
    d.storeAll directory (files ++ more) medium =
      (d.storeAll directory files medium).storeAll directory more medium :=
  List.foldl_append

theorem storeFaults_append (directory : String) (d : Disk) (files more : List (String × Bytes))
    (medium : Medium) :
    d.storeFaults directory (files ++ more) medium =
      d.storeFaults directory files medium ++
        (d.storeAll directory files medium).storeFaults directory more medium := by
  induction files generalizing d with
  | nil => rfl
  | cons file rest ih =>
    have hnext : d.storeAll directory (file :: rest) medium =
        (medium d directory file.1 file.2).1.storeAll directory rest medium := rfl
    rw [List.cons_append, hnext, storeFaults, storeFaults]
    rcases medium d directory file.1 file.2 with ⟨next, outcome⟩
    cases outcome with
    | ok _ => exact ih next
    | error fault => exact congrArg (List.cons fault) (ih next)

theorem grows_store (directory : String) (d : Disk) (file : String × Bytes) :
    d.Grows (d.store directory file) := by
  rcases d.writeBelow_cases directory file.1 file.2 with ⟨-, hmade⟩ | ⟨-, made, hmade, hwritten⟩
  · exact hmade.grows
  · obtain ⟨place, hplace, hfree, hput, -⟩ := write_ok hwritten
    rw [store, hput]
    exact hmade.grows.trans (grows_put_file hplace hfree file.2)

theorem grows_storeAll (directory : String) (d : Disk) (files : List (String × Bytes)) :
    d.Grows (d.storeAll directory files) := by
  induction files generalizing d with
  | nil => exact .refl d
  | cons file rest ih => exact (grows_store directory d file).trans (ih _)

/-- A file that is there after one write was there before, or its path has been written. -/
theorem file_store {directory : String} {file : String × Bytes} {contents : Bytes}
    (h : (d.store directory file).get? place = some (.file contents)) :
    d.get? place = some (.file contents) ∨ (d.store directory file).locate file.1 = .ok place := by
  rcases d.writeBelow_cases directory file.1 file.2 with ⟨-, hmade⟩ | ⟨-, made, hmade, hwritten⟩
  · exact Or.inl (hmade.file h)
  · obtain ⟨written, hwritten, -, hput, hlocate⟩ := write_ok hwritten
    by_cases hplace : place = written
    · exact Or.inr (hplace ▸ hlocate)
    · rw [store, hput, get?_put_of_ne made hwritten _ hplace] at h
      exact Or.inl (hmade.file h)

theorem file_storeAll {directory : String} {files : List (String × Bytes)} {contents : Bytes}
    (h : (d.storeAll directory files).get? place = some (.file contents)) :
    d.get? place = some (.file contents) ∨
      ∃ file ∈ files, (d.storeAll directory files).locate file.1 = .ok place := by
  induction files generalizing d with
  | nil => exact Or.inl h
  | cons file rest ih =>
    have hlater := grows_storeAll directory (d.store directory file) rest
    rcases ih h with hbefore | ⟨written, hmem, hlocate⟩
    · rcases file_store hbefore with hbefore | hlocate
      · exact Or.inl hbefore
      · exact Or.inr ⟨file, List.mem_cons_self, hlater.locate hlocate⟩
    · exact Or.inr ⟨written, List.mem_cons_of_mem _ hmem, hlocate⟩

end Disk

end EffectLink
