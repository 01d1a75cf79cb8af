import EffectLink.Command

namespace EffectLink

/-- A slash and one or more capitals. -/
def IsSwitch (argument : String) : Prop :=
  ∃ name : List Char, name ≠ [] ∧ (∀ c ∈ name, c.isUpper = true) ∧ argument.toList = '/' :: name

def StartsWithDash (argument : String) : Prop := ∃ rest, argument.toList = '-' :: rest

/-- An argument that can be the manifest. -/
def IsPositional (argument : String) : Prop := ¬StartsWithDash argument ∧ ¬IsSwitch argument

/-- The options that are words of their own. -/
def optionWords : List String := ["-o", "--target", "--no-interface-check", "--parallel"]

/-- A dash in front of something that is no option. -/
def IsUnknownOption (argument : String) : Prop :=
  StartsWithDash argument ∧ argument ∉ optionWords ∧ ∀ value, argument ≠ "--target=" ++ value

theorem isSwitch_iff {argument : String} : isSwitch argument = true ↔ IsSwitch argument := by
  unfold isSwitch IsSwitch
  constructor
  · intro h
    split at h
    · next name hname =>
      simp only [Bool.and_eq_true, Bool.not_eq_true', List.isEmpty_eq_false_iff, List.all_eq_true] at h
      exact ⟨name, h.1, h.2, hname⟩
    · contradiction
  · rintro ⟨name, hne, hcapitals, hname⟩
    rw [hname]
    simpa [hne] using hcapitals

theorem isDashed_iff {argument : String} : isDashed argument = true ↔ StartsWithDash argument := by
  unfold isDashed StartsWithDash
  cases argument.toList with
  | nil => simp
  | cons c rest => simp

theorem targetValue?_eq_some {argument value : String} :
    targetValue? argument = some value ↔ argument = "--target=" ++ value := by
  unfold targetValue?
  rw [← String.toList_inj, String.toList_append]
  constructor
  · intro h
    dsimp only at h
    split at h
    · next hflag =>
      obtain ⟨rest, hrest⟩ := List.isPrefixOf_iff_prefix.mp hflag
      rw [← hrest, List.drop_left] at h
      cases h
      have hvalue : (String.ofList rest).toList = rest := String.toList_ofList
      rw [← hrest, hvalue]
    · contradiction
  · intro h
    dsimp only
    rw [h, if_pos (List.isPrefixOf_iff_prefix.mpr (List.prefix_append _ _)), List.drop_left,
      String.ofList_toList]

/-- An option is no switch and no manifest. -/
theorem startsWithDash_of_mem {argument : String} (h : argument ∈ optionWords) :
    StartsWithDash argument := by
  have hall : ∀ word ∈ optionWords, isDashed word = true := by decide
  exact isDashed_iff.mp (hall argument h)

theorem startsWithDash_inline (value : String) : StartsWithDash ("--target=" ++ value) := by
  rw [StartsWithDash, String.toList_append]
  exact ⟨_, rfl⟩

theorem IsSwitch.not_startsWithDash {argument : String} (h : IsSwitch argument) :
    ¬StartsWithDash argument := by
  obtain ⟨name, -, -, hname⟩ := h
  rintro ⟨rest, hrest⟩
  rw [hname] at hrest
  cases hrest

/-- What the arguments consist of. The value of an option is whatever follows it. -/
inductive CompileItem where
  | outDir (value : String)
  | target (value : String)
  | inlineTarget (value : String)
  | noInterfaceCheck
  | parallel
  | switch (argument : String) (h : IsSwitch argument)
  | manifest (path : String) (h : IsPositional path)
  deriving DecidableEq

namespace CompileItem

def arguments : CompileItem → List String
  | outDir value => ["-o", value]
  | target value => ["--target", value]
  | inlineTarget value => ["--target=" ++ value]
  | noInterfaceCheck => ["--no-interface-check"]
  | parallel => ["--parallel"]
  | switch argument _ => [argument]
  | manifest path _ => [path]

def outDir? : CompileItem → Option String
  | outDir value => some value
  | _ => none

/-- The value of either spelling of the target. -/
def target? : CompileItem → Option String
  | target value | inlineTarget value => some value
  | _ => none

def switch? : CompileItem → Option String
  | switch argument _ => some argument
  | _ => none

def manifest? : CompileItem → Option String
  | manifest path _ => some path
  | _ => none

/-- The arguments of some items, one after the other. -/
def written (items : List CompileItem) : List String := items.flatMap arguments

def manifests (items : List CompileItem) : List String := items.filterMap manifest?

/-- The options that items with one manifest stand for: the last value of each option, the switches in
order, and the flags that occur. -/
def options (path : String) (items : List CompileItem) : CompileOptions :=
  { manifest := path
    outDir := (items.filterMap outDir?).getLast?.getD "."
    profile := (items.filterMap target?).getLast?.getD "spv10"
    switches := items.filterMap switch?
    link := ⟨decide (noInterfaceCheck ∉ items), decide (parallel ∈ items)⟩ }

end CompileItem

/-- The options after one more item. -/
def PendingOptions.add (o : PendingOptions) : CompileItem → PendingOptions
  | .outDir value => { o with outDir := value }
  | .target value | .inlineTarget value => { o with profile := value }
  | .noInterfaceCheck => { o with link := { o.link with interfaceValidation := false } }
  | .parallel => { o with link := { o.link with parallel := true } }
  | .switch argument _ => { o with switches := o.switches ++ [argument] }
  | .manifest path _ => { o with manifest := some path }

/-- How arguments can begin: with an item, with an option that lacks its value, or with an option that
does not exist. -/
inductive ArgumentFront : List String → Prop
  | done : ArgumentFront []
  | item (item : CompileItem) (rest : List String) : ArgumentFront (item.arguments ++ rest)
  | missingValue (option : String) (h : option = "-o" ∨ option = "--target") :
    ArgumentFront [option]
  | unknown (argument : String) (rest : List String) (h : IsUnknownOption argument) :
    ArgumentFront (argument :: rest)

theorem argumentFront (arguments : List String) : ArgumentFront arguments := by
  cases arguments with
  | nil => exact .done
  | cons first rest =>
    -- the kinds in the order in which they are tried, but dashes before switches
    by_cases hword : first ∈ optionWords
    · simp only [optionWords, List.mem_cons, List.not_mem_nil, or_false] at hword
      rcases hword with rfl | rfl | rfl | rfl
      · cases rest with
        | nil => exact .missingValue _ (Or.inl rfl)
        | cons value rest => exact .item (.outDir value) rest
      · cases rest with
        | nil => exact .missingValue _ (Or.inr rfl)
        | cons value rest => exact .item (.target value) rest
      · exact .item .noInterfaceCheck rest
      · exact .item .parallel rest
    · by_cases hinline : ∃ value, first = "--target=" ++ value
      · obtain ⟨value, rfl⟩ := hinline
        exact .item (.inlineTarget value) rest
      · by_cases hdash : StartsWithDash first
        · exact .unknown first rest ⟨hdash, hword, not_exists.mp hinline⟩
        · by_cases hswitch : IsSwitch first
          · exact .item (.switch first hswitch) rest
          · exact .item (.manifest first ⟨hdash, hswitch⟩) rest

namespace CompileOptions

variable {o : PendingOptions} {argument : String} {rest : List String}

/-- What is done with an argument that is no word of its own. -/
theorem parseFrom_other (h : argument ∉ optionWords) :
    parseFrom o (argument :: rest) =
      match targetValue? argument with
      | some value => parseFrom { o with profile := value } rest
      | none =>
        if isSwitch argument then parseFrom { o with switches := o.switches ++ [argument] } rest
        else if isDashed argument || o.manifest.isSome then .error (.unexpected argument)
        else parseFrom { o with manifest := some argument } rest := by
  simp only [optionWords, List.mem_cons, List.not_mem_nil, or_false, not_or] at h
  obtain ⟨hout, htarget, hcheck, hparallel⟩ := h
  -- the equation of the last case asks that the argument is none of the four words
  exact parseFrom.eq_8 o argument rest hout htarget hcheck hparallel

theorem targetValue?_eq_none (h : ∀ value, argument ≠ "--target=" ++ value) :
    targetValue? argument = none :=
  Option.eq_none_iff_forall_ne_some.mpr fun value hvalue => h value (targetValue?_eq_some.mp hvalue)

theorem parseFrom_missing {option : String} (h : option = "-o" ∨ option = "--target") :
    parseFrom o [option] = .error (.missingValue option) := by
  rcases h with rfl | rfl <;> rfl

theorem parseFrom_unknown (h : IsUnknownOption argument) :
    parseFrom o (argument :: rest) = .error (.unexpected argument) := by
  obtain ⟨hdash, hword, hinline⟩ := h
  have hswitch : ¬isSwitch argument = true := fun hs =>
    (isSwitch_iff.mp hs).not_startsWithDash hdash
  rw [parseFrom_other hword, targetValue?_eq_none hinline]
  dsimp only
  rw [if_neg hswitch, isDashed_iff.mpr hdash, Bool.true_or, if_pos rfl]

/-- An argument without a dash is no option. -/
theorem parseFrom_plain (h : ¬StartsWithDash argument) :
    parseFrom o (argument :: rest) =
      if isSwitch argument then parseFrom { o with switches := o.switches ++ [argument] } rest
      else if o.manifest.isSome then .error (.unexpected argument)
      else parseFrom { o with manifest := some argument } rest := by
  have hword : argument ∉ optionWords := fun hmem => h (startsWithDash_of_mem hmem)
  have hinline : ∀ value, argument ≠ "--target=" ++ value := by
    rintro value rfl
    exact h (startsWithDash_inline value)
  have hdash : isDashed argument = false := Bool.eq_false_iff.mpr (mt isDashed_iff.mp h)
  rw [parseFrom_other hword, targetValue?_eq_none hinline]
  dsimp only
  rw [hdash, Bool.false_or]

/-- An argument that can be the manifest is the manifest, if there is none yet. -/
theorem parseFrom_positional (h : IsPositional argument) :
    parseFrom o (argument :: rest) =
      if o.manifest.isSome then .error (.unexpected argument)
      else parseFrom { o with manifest := some argument } rest := by
  rw [parseFrom_plain h.1, if_neg (mt isSwitch_iff.mp h.2)]

/-- An item is read as a whole, and a manifest only if it is the first one. -/
theorem parseFrom_item (item : CompileItem) (h : item.manifest? = none ∨ o.manifest = none) :
    parseFrom o (item.arguments ++ rest) = parseFrom (o.add item) rest := by
  cases item with
  | inlineTarget value =>
    have hvalue : targetValue? ("--target=" ++ value) = some value := targetValue?_eq_some.mpr rfl
    have hnone : ∀ word ∈ optionWords, targetValue? word = none := by decide
    have hword : "--target=" ++ value ∉ optionWords := by
      intro hmem
      rw [hnone _ hmem] at hvalue
      contradiction
    change parseFrom o (("--target=" ++ value) :: rest) = _
    rw [parseFrom_other hword, hvalue]
    rfl
  | switch argument hswitch =>
    change parseFrom o (argument :: rest) = _
    rw [parseFrom_plain hswitch.not_startsWithDash, if_pos (isSwitch_iff.mpr hswitch)]
    rfl
  | manifest path hpath =>
    have hnone : o.manifest = none := h.resolve_left (by simp [CompileItem.manifest?])
    change parseFrom o (path :: rest) = _
    rw [parseFrom_positional hpath, hnone]
    rfl
  -- the other items begin with a word of their own
  | outDir _ | target _ | noInterfaceCheck | parallel => rfl

open CompileItem

theorem manifest_add {item : CompileItem} (h : item.manifest? = none ∨ o.manifest = none) :
    (o.add item).manifest.toList = o.manifest.toList ++ item.manifest?.toList := by
  cases item with
  | manifest path hpath =>
    have hnone : o.manifest = none := h.resolve_left (by simp [manifest?])
    rw [hnone]
    rfl
  | _ => exact (List.append_nil _).symm

/-- Items that do not bring a second manifest. -/
def Fits (o : PendingOptions) (items : List CompileItem) : Prop :=
  (o.manifest.toList ++ manifests items).length ≤ 1

theorem manifests_cons (item : CompileItem) (items : List CompileItem) :
    manifests (item :: items) = item.manifest?.toList ++ manifests items := by
  unfold manifests
  rw [List.filterMap_cons]
  cases item.manifest? <;> rfl

theorem fits_cons {item : CompileItem} {items : List CompileItem} :
    Fits o (item :: items) ↔
      (item.manifest? = none ∨ o.manifest = none) ∧ Fits (o.add item) items := by
  have hfirst : Fits o (item :: items) → item.manifest? = none ∨ o.manifest = none := by
    unfold Fits
    rw [manifests_cons]
    cases item.manifest? with
    | none => exact fun _ => Or.inl rfl
    | some path =>
      cases o.manifest with
      | none => exact fun _ => Or.inr rfl
      | some other =>
        -- two manifests at once
        intro hlength
        simp only [List.length_append, Option.toList_some, List.length_singleton] at hlength
        omega
  have hrest (h : item.manifest? = none ∨ o.manifest = none) :
      Fits (o.add item) items ↔ Fits o (item :: items) := by
    unfold Fits
    rw [manifest_add h, manifests_cons, List.append_assoc]
  constructor
  · intro hfits
    exact ⟨hfirst hfits, (hrest (hfirst hfits)).mpr hfits⟩
  · rintro ⟨h, hfits⟩
    exact (hrest h).mp hfits

/-- Items in front of other arguments are read one after the other. -/
theorem parseFrom_written {items : List CompileItem} (h : Fits o items) (rest : List String) :
    parseFrom o (written items ++ rest) = parseFrom (items.foldl PendingOptions.add o) rest := by
  induction items generalizing o with
  | nil => rfl
  | cons item items ih =>
    obtain ⟨hitem, hitems⟩ := fits_cons.mp h
    rw [written, List.flatMap_cons, List.append_assoc, parseFrom_item item hitem, List.foldl_cons]
    exact ih hitems

/-- What the items have left, part by part. -/
theorem foldl_add (items : List CompileItem) (o : PendingOptions) :
    items.foldl PendingOptions.add o =
      { manifest := (manifests items).getLast?.or o.manifest
        outDir := (items.filterMap outDir?).getLast?.getD o.outDir
        profile := (items.filterMap target?).getLast?.getD o.profile
        switches := o.switches ++ items.filterMap switch?
        link :=
          { interfaceValidation := o.link.interfaceValidation && decide (noInterfaceCheck ∉ items)
            parallel := o.link.parallel || decide (parallel ∈ items) } } := by
  induction items generalizing o with
  | nil => simp [manifests]
  | cons item items ih =>
    rw [List.foldl_cons, ih]
    cases item <;>
      simp [PendingOptions.add, manifests, manifest?, outDir?, target?, switch?, List.filterMap_cons,
        List.getLast?_cons]

/-- Where the reading of items comes to an end: behind all arguments, or in front of a problem. -/
inductive Stops (o : PendingOptions) : List String → Prop
  | done : Stops o []
  | missingValue (option : String) (h : option = "-o" ∨ option = "--target") : Stops o [option]
  | unknown (argument : String) (rest : List String) (h : IsUnknownOption argument) :
    Stops o (argument :: rest)
  | second (argument : String) (rest : List String) (h : IsPositional argument)
    (hmanifest : o.manifest.isSome = true) : Stops o (argument :: rest)

/-- All arguments can be read as items up to some point. -/
theorem exists_items (arguments : List String) (o : PendingOptions) :
    ∃ items rest, arguments = written items ++ rest ∧ Fits o items ∧
      Stops (items.foldl PendingOptions.add o) rest := by
  have hnone (o : PendingOptions) : Fits o [] := by
    unfold Fits
    cases o.manifest <;> simp [manifests]
  -- an item takes at least one argument, so what is left is shorter
  induction hn : arguments.length using Nat.strongRecOn generalizing arguments o with
  | ind n ih =>
    cases argumentFront arguments with
    | done => exact ⟨[], [], rfl, hnone o, .done⟩
    | missingValue option h => exact ⟨[], [option], rfl, hnone o, .missingValue option h⟩
    | unknown argument rest h => exact ⟨[], _, rfl, hnone o, .unknown argument rest h⟩
    | item item rest =>
      by_cases hitem : item.manifest? = none ∨ o.manifest = none
      · have hshorter : rest.length < n := by
          rw [← hn, List.length_append]
          have hpos : 0 < item.arguments.length := by cases item <;> simp [CompileItem.arguments]
          omega
        obtain ⟨items, left, rfl, hfits, hstops⟩ := ih _ hshorter rest (o.add item) rfl
        refine ⟨item :: items, left, ?_, fits_cons.mpr ⟨hitem, hfits⟩, hstops⟩
        rw [written, written, List.flatMap_cons, List.append_assoc]
      · cases item with
        | manifest path hpath =>
          rw [not_or] at hitem
          have hmanifest : o.manifest.isSome = true := Option.isSome_iff_ne_none.mpr hitem.2
          exact ⟨[], _, rfl, hnone o, .second path rest hpath hmanifest⟩
        | _ => exact absurd (Or.inl rfl) hitem

/-- What is wrong with arguments. All of them that stand in front of the problem are items, with at most
one manifest; a manifest is missed only behind all arguments. -/
inductive Problem (arguments : List String) : UsageError → Prop
  | missingValue {items : List CompileItem} {option : String}
    (hoption : option = "-o" ∨ option = "--target") (hone : (manifests items).length ≤ 1)
    (h : arguments = written items ++ [option]) : Problem arguments (.missingValue option)
  | unknownOption {items : List CompileItem} {argument : String} {rest : List String}
    (hunknown : IsUnknownOption argument) (hone : (manifests items).length ≤ 1)
    (h : arguments = written items ++ argument :: rest) : Problem arguments (.unexpected argument)
  | secondManifest {items : List CompileItem} {argument : String} {rest : List String}
    (hpositional : IsPositional argument) (hone : (manifests items).length = 1)
    (h : arguments = written items ++ argument :: rest) : Problem arguments (.unexpected argument)
  | missingManifest {items : List CompileItem} (hnone : manifests items = [])
    (h : arguments = written items) : Problem arguments .missingManifest

theorem parse_written {items : List CompileItem} (h : (manifests items).length ≤ 1)
    (rest : List String) :
    parse (written items ++ rest) = parseFrom (items.foldl PendingOptions.add .start) rest := by
  have hfits : Fits .start items := h
  exact parseFrom_written hfits rest

theorem manifest_foldl (items : List CompileItem) :
    (items.foldl PendingOptions.add .start).manifest = (manifests items).getLast? := by
  rw [foldl_add]
  exact Option.or_none

theorem parse_items {items : List CompileItem} {path : String} (h : manifests items = [path]) :
    parse (written items) = .ok (options path items) := by
  have hread := parse_written (Nat.le_of_eq (congrArg List.length h)) []
  rw [List.append_nil] at hread
  rw [hread, foldl_add, h]
  simp [parseFrom, PendingOptions.finish, PendingOptions.start, LinkOptions.standard, options]

theorem Problem.parse_eq {arguments : List String} {fault : UsageError}
    (h : Problem arguments fault) : parse arguments = .error fault := by
  cases h with
  | missingValue hoption hone h =>
    rw [h, parse_written hone]
    exact parseFrom_missing hoption
  | unknownOption hunknown hone h =>
    rw [h, parse_written hone]
    exact parseFrom_unknown hunknown
  | @secondManifest items argument rest hpositional hone h =>
    have hmanifest : (items.foldl PendingOptions.add .start).manifest.isSome = true := by
      rw [manifest_foldl, List.getLast?_isSome]
      exact List.ne_nil_of_length_eq_add_one hone
    rw [h, parse_written (Nat.le_of_eq hone), parseFrom_positional hpositional, if_pos hmanifest]
  | @missingManifest items hnone h =>
    have hread := parse_written (Nat.le_of_lt_succ (by rw [hnone]; exact Nat.zero_lt_two)) []
    rw [List.append_nil] at hread
    have hmanifest : (items.foldl PendingOptions.add .start).manifest = none := by
      rw [manifest_foldl, hnone]
      rfl
    rw [h, hread, parseFrom, PendingOptions.finish, hmanifest]

/-- Arguments are items with one manifest, or there is a problem. -/
theorem exists_outcome (arguments : List String) :
    (∃ items path, arguments = written items ∧ manifests items = [path]) ∨
    ∃ fault, Problem arguments fault := by
  obtain ⟨items, rest, rfl, hone, hstops⟩ := exists_items arguments .start
  have hone : (manifests items).length ≤ 1 := hone
  cases hstops with
  | done =>
    rw [List.append_nil]
    cases hmanifests : manifests items with
    | nil => exact Or.inr ⟨_, .missingManifest hmanifests rfl⟩
    | cons path others =>
      rw [hmanifests, List.length_cons] at hone
      obtain rfl : others = [] := List.eq_nil_of_length_eq_zero (by omega)
      exact Or.inl ⟨items, path, rfl, hmanifests⟩
  | missingValue option h => exact Or.inr ⟨_, .missingValue h hone rfl⟩
  | unknown argument rest h => exact Or.inr ⟨_, .unknownOption h hone rfl⟩
  | second argument rest h hmanifest =>
    rw [manifest_foldl, List.getLast?_isSome] at hmanifest
    have hpos : 0 < (manifests items).length := List.length_pos_iff.mpr hmanifest
    exact Or.inr ⟨_, .secondManifest h (by omega) rfl⟩

/-- The arguments that are accepted are those that fall into items with one manifest, and they give the
options of the items. All others are refused for their first problem. -/
theorem parse_exact (arguments : List String) :
    (∀ options, parse arguments = .ok options ↔
      ∃ items path, arguments = written items ∧ manifests items = [path] ∧
        options = CompileItem.options path items) ∧
    ∀ fault, parse arguments = .error fault ↔ Problem arguments fault := by
  constructor
  · intro o
    constructor
    · intro hok
      rcases exists_outcome arguments with ⟨items, path, rfl, hpath⟩ | ⟨fault, hproblem⟩
      · rw [parse_items hpath] at hok
        cases hok
        exact ⟨items, path, rfl, hpath, rfl⟩
      · rw [hproblem.parse_eq] at hok
        cases hok
    · rintro ⟨items, path, rfl, hpath, rfl⟩
      exact parse_items hpath
  · intro fault
    constructor
    · intro herror
      rcases exists_outcome arguments with ⟨items, path, rfl, hpath⟩ | ⟨other, hproblem⟩
      · rw [parse_items hpath] at herror
        cases herror
      · rw [hproblem.parse_eq] at herror
        cases herror
        exact hproblem
    · exact Problem.parse_eq

/-- An option takes the next argument even if it looks like a flag, and a path is no switch. -/
example : parse ["/home/sky.json", "-o", "--parallel", "/NOSUB", "--target=c", "--target", "-o"] =
    .ok ⟨"/home/sky.json", "--parallel", "-o", ["/NOSUB"], ⟨true, false⟩⟩ := by
  rfl

end CompileOptions

end EffectLink
