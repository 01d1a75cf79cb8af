import EffectLink.Diagnostic.Basic

namespace EffectLink

structure QueueConfig where
  /-- Errors kept for output; zero keeps all. -/
  errorLimit : Nat
  deduplicate : Bool
  deriving DecidableEq

def QueueConfig.standard : QueueConfig := ⟨100, true⟩

/-- Keep everything, duplicates included. -/
def QueueConfig.unlimited : QueueConfig := ⟨0, false⟩

structure Queue where
  config : QueueConfig
  kept : List Diagnostic
  /-- The set in which a deduplicating queue looks duplicates up. -/
  remembered : List Diagnostic
  errors : Nat
  /-- Errors that are counted and not kept. -/
  dropped : Nat
  warnings : Nat
  deriving DecidableEq

namespace Queue

def empty (config : QueueConfig) : Queue := ⟨config, [], [], 0, 0, 0⟩

/-- An empty queue of the same configuration. -/
def fork (q : Queue) : Queue := empty q.config

/-- Whether a deduplicating queue has kept `d` before. -/
def seen (q : Queue) (d : Diagnostic) : Bool := q.config.deduplicate && q.remembered.contains d

/-- Whether one more error would be past the limit. -/
def limitReached (q : Queue) : Bool := q.config.errorLimit != 0 && q.config.errorLimit ≤ q.errors

/-- Keeps a diagnostic, and remembers it if duplicates are to be refused. -/
def keep (q : Queue) (d : Diagnostic) : Queue :=
  { q with
    kept := q.kept ++ [d]
    remembered := if q.config.deduplicate then d :: q.remembered else q.remembered }

/-- Queues a diagnostic. The flag is false for a duplicate and for an error past the limit. -/
def offer (q : Queue) (d : Diagnostic) : Queue × Bool :=
  if q.seen d then (q, false)
  else match d.severity with
    | .error =>
      if q.limitReached then ({ q with errors := q.errors + 1, dropped := q.dropped + 1 }, false)
      else ({ q with errors := q.errors + 1 }.keep d, true)
    | .warning => ({ q with warnings := q.warnings + 1 }.keep d, true)
    | .note => (q.keep d, true)

def add (q : Queue) (d : Diagnostic) : Queue := (q.offer d).1

def addAll (q : Queue) (ds : List Diagnostic) : Queue := ds.foldl add q

/-- Appends what `other` has kept, in its order, and counts what it has dropped. -/
def merge (q other : Queue) : Queue :=
  let merged := q.addAll other.kept
  { merged with
    errors := merged.errors + other.dropped
    dropped := merged.dropped + other.dropped }

def hasErrors (q : Queue) : Bool := q.errors != 0

/-- The order of output: diagnostics without a location first, then by location. -/
def inOrder (a b : Diagnostic) : Bool :=
  match a.location, b.location with
  | none, _ => true
  | some _, none => false
  | some l, some m => !m.before l

/-- What is kept, in the order of output; diagnostics at one place stay as they were added. -/
def sorted (q : Queue) : List Diagnostic := q.kept.mergeSort inOrder

/-- Takes what is kept and empties the queue. -/
def flush (q : Queue) : List Diagnostic × Queue := (q.sorted, q.fork)

end Queue

end EffectLink
