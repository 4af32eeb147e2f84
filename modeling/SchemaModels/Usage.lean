import SchemaModels.Failure
import SchemaModels.Graph.Basic
import SchemaModels.Imports

/-! # What a text uses

While a part of the module is written, the imports and the type names that it uses are collected, and
what it adds to the dependency graph. What was collected before a failure stays. -/

namespace SchemaModels

/-- Imports, and names that stand for declared types. -/
structure Usage where
  imports : Imports := {}
  referenced : List String := []
  deriving DecidableEq, Repr

namespace Usage

/-- All that two parts use. -/
def merge (u v : Usage) : Usage :=
  ⟨u.imports.merge v.imports, Distinct.union u.referenced v.referenced⟩

@[simp] theorem merge_empty (u : Usage) : u.merge {} = u := by simp [merge, Imports.merge]

@[simp] theorem empty_merge (u : Usage) : merge {} u = u := by simp [merge, Imports.merge]

theorem merge_assoc (u v w : Usage) : (u.merge v).merge w = u.merge (v.merge w) := by
  simp [merge, Imports.merge, Distinct.union_assoc]

@[simp] theorem mem_features_merge {u v : Usage} {f : Feature} :
    f ∈ (u.merge v).imports.features ↔ f ∈ u.imports.features ∨ f ∈ v.imports.features := by
  simp [merge, Imports.merge]

@[simp] theorem mem_names_merge {u v : Usage} {n : ImportedName} :
    n ∈ (u.merge v).imports.names ↔ n ∈ u.imports.names ∨ n ∈ v.imports.names := by
  simp [merge, Imports.merge]

@[simp] theorem mem_referenced_merge {u v : Usage} {n : String} :
    n ∈ (u.merge v).referenced ↔ n ∈ u.referenced ∨ n ∈ v.referenced := by
  simp [merge]

def ofFeatures (fs : List Feature) : Usage := ⟨Imports.register {} fs, []⟩

def ofName (module name : String) : Usage := ⟨Imports.registerName {} ⟨module, name⟩, []⟩

def ofReferenced (names : List String) : Usage := ⟨{}, Distinct.addAll [] names⟩

end Usage

/-- A result, or a failure, with what was used and what was added to the graph on the way to it. -/
structure Written (α : Type) where
  usage : Usage
  calls : List DependencyGraph.Call
  result : Except Failure α

namespace Written

variable {α β : Type}

instance : Monad Written where
  pure a := ⟨{}, [], .ok a⟩
  bind w f :=
    match w.result with
    | .ok a => ⟨w.usage.merge (f a).usage, w.calls ++ (f a).calls, (f a).result⟩
    | .error e => ⟨w.usage, w.calls, .error e⟩

def fail (e : Failure) : Written α := ⟨{}, [], .error e⟩

def use (u : Usage) : Written Unit := ⟨u, [], .ok ()⟩

def call (c : DependencyGraph.Call) : Written Unit := ⟨{}, [c], .ok ()⟩

def ofExcept (r : Except Failure α) : Written α := ⟨{}, [], r⟩

variable {u : Usage} {calls : List DependencyGraph.Call} {a : α} {e : Failure} {f : α → Written β}

@[simp] theorem pure_eq (a : α) : (pure a : Written α) = ⟨{}, [], .ok a⟩ := rfl

@[simp] theorem ok_bind : (⟨u, calls, .ok a⟩ : Written α) >>= f =
    ⟨u.merge (f a).usage, calls ++ (f a).calls, (f a).result⟩ := rfl

@[simp] theorem error_bind : (⟨u, calls, .error e⟩ : Written α) >>= f = ⟨u, calls, .error e⟩ := rfl

theorem id_map_eq (w : Written α) : id <$> w = w := by
  obtain ⟨u, calls, e | a⟩ := w
  · rfl
  · change Written.mk (u.merge {}) (calls ++ []) (.ok a) = _
    rw [u.merge_empty, calls.append_nil]

theorem pure_bind_eq (a : α) (f : α → Written β) : pure a >>= f = f a :=
  congrArg (Written.mk · (f a).calls (f a).result) (f a).usage.empty_merge

theorem bind_assoc_eq {γ : Type} (w : Written α) (f : α → Written β) (g : β → Written γ) :
    w >>= f >>= g = w >>= fun a => f a >>= g := by
  obtain ⟨u, calls, e | a⟩ := w
  · rfl
  · rcases h : f a with ⟨v, calls', e | b⟩ <;> simp [h, Usage.merge_assoc]

instance : LawfulMonad Written := LawfulMonad.mk' Written id_map_eq pure_bind_eq bind_assoc_eq

end Written

end SchemaModels
