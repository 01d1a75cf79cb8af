namespace EffectLink

inductive Stage where
  | vertex | hull | domain | geometry | pixel | compute
  deriving DecidableEq, Inhabited

namespace Stage

def all : List Stage := [.vertex, .hull, .domain, .geometry, .pixel, .compute]

/-- The stages that pass data to each other. -/
def graphics : List Stage := [.vertex, .hull, .domain, .geometry, .pixel]

theorem mem_all (s : Stage) : s ∈ all := by
  cases s <;> decide

/-- What holds before a pass over all stages, and is kept when one more of them is done, holds after it. -/
theorem foldl_all {σ : Type} {f : σ → Stage → σ} {holds : List Stage → σ → Prop} {start : σ}
    (hstart : holds [] start)
    (hstep : ∀ done r stage, stage ∉ done → holds done r → holds (stage :: done) (f r stage)) :
    holds all.reverse (all.foldl f start) := by
  have hrun (todo done : List Stage) (r : σ) (htodo : todo.Nodup)
      (hdone : ∀ stage ∈ todo, stage ∉ done) (hr : holds done r) :
      holds (todo.reverse ++ done) (todo.foldl f r) := by
    induction todo generalizing done r with
    | nil => exact hr
    | cons stage todo ih =>
      obtain ⟨hfresh, htodo⟩ := List.nodup_cons.mp htodo
      rw [List.foldl_cons, List.reverse_cons, List.append_assoc]
      refine ih _ _ htodo (fun s hs hmem => ?_) (hstep done r stage (hdone stage List.mem_cons_self) hr)
      rcases List.mem_cons.mp hmem with rfl | hmem
      · exact hfresh hs
      · exact hdone s (List.mem_cons_of_mem _ hs) hmem
  have hall := hrun all [] start (by decide) (fun _ _ => List.not_mem_nil) hstart
  rw [List.append_nil] at hall
  exact hall

instance (P : Stage → Prop) [DecidablePred P] : Decidable (∀ s, P s) :=
  decidable_of_iff (∀ s ∈ all, P s) ⟨fun h s => h s s.mem_all, fun h s _ => h s⟩

def index : Stage → Nat
  | .vertex => 0
  | .hull => 1
  | .domain => 2
  | .geometry => 3
  | .pixel => 4
  | .compute => 5

/-- Key of the program row that assigns a function to the stage. -/
def rowKey : Stage → String
  | .vertex => "VertexShader"
  | .hull => "HullShader"
  | .domain => "DomainShader"
  | .geometry => "GeometryShader"
  | .pixel => "PixelShader"
  | .compute => "ComputeShader"

def ofRowKey? (key : String) : Option Stage := all.find? (·.rowKey == key)

theorem rowKey_injective {s t : Stage} (h : s.rowKey = t.rowKey) : s = t := by
  revert h
  cases s <;> cases t <;> decide

theorem ofRowKey?_eq_some {key : String} {s : Stage} : ofRowKey? key = some s ↔ s.rowKey = key := by
  constructor
  · intro h
    simpa using List.find?_some h
  · intro h
    subst h
    cases s <;> decide

/-- File extension of the stage's generated source. -/
def extension : Stage → String
  | .vertex => "vert"
  | .hull => "tesc"
  | .domain => "tese"
  | .geometry => "geom"
  | .pixel => "frag"
  | .compute => "comp"

/-- The name used in messages. -/
def label : Stage → String
  | .vertex => "Vertex"
  | .hull => "Hull/Control"
  | .domain => "Domain/Evaluation"
  | .geometry => "Geometry"
  | .pixel => "Pixel/Fragment"
  | .compute => "Compute"

end Stage

/-- One value for each stage. -/
structure PerStage (α : Type) where
  vertex : α
  hull : α
  domain : α
  geometry : α
  pixel : α
  compute : α
  deriving DecidableEq

namespace PerStage

variable {α : Type}

def ofFn (f : Stage → α) : PerStage α :=
  ⟨f .vertex, f .hull, f .domain, f .geometry, f .pixel, f .compute⟩

def get (p : PerStage α) : Stage → α
  | .vertex => p.vertex
  | .hull => p.hull
  | .domain => p.domain
  | .geometry => p.geometry
  | .pixel => p.pixel
  | .compute => p.compute

def set (p : PerStage α) (stage : Stage) (value : α) : PerStage α :=
  match stage with
  | .vertex => { p with vertex := value }
  | .hull => { p with hull := value }
  | .domain => { p with domain := value }
  | .geometry => { p with geometry := value }
  | .pixel => { p with pixel := value }
  | .compute => { p with compute := value }

/-- The values in pipeline order. -/
def toList (p : PerStage α) : List α := Stage.all.map p.get

@[simp]
theorem get_set_self (p : PerStage α) (s : Stage) (a : α) : (p.set s a).get s = a := by
  cases s <;> rfl

theorem get_set_of_ne (p : PerStage α) {s t : Stage} (h : t ≠ s) (a : α) :
    (p.set s a).get t = p.get t := by
  cases s <;> cases t <;> simp_all [get, set]

@[simp]
theorem get_ofFn (f : Stage → α) (s : Stage) : (ofFn f).get s = f s := by
  cases s <;> rfl

@[ext]
theorem ext_get {p q : PerStage α} (h : ∀ s, p.get s = q.get s) : p = q := by
  cases p
  cases q
  have h1 := h .vertex
  have h2 := h .hull
  have h3 := h .domain
  have h4 := h .geometry
  have h5 := h .pixel
  have h6 := h .compute
  simp only [get] at h1 h2 h3 h4 h5 h6
  simp only [h1, h2, h3, h4, h5, h6]

end PerStage

end EffectLink
