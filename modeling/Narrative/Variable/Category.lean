/-!
# Categories of variables

Variables are grouped into three categories.  `Categorized α` holds one `α` per category, so a
lookup by category never misses.
-/

namespace Narrative

universe u v

/-- The groups of variables. -/
inductive Category where
  | physiological
  | emotional
  | difficulty
deriving DecidableEq, Repr

namespace Category

/-- All categories, in their fixed order. -/
def all : List Category := [physiological, emotional, difficulty]

/-- The name of a category in documents and requests. -/
def name : Category → String
  | physiological => "physiological"
  | emotional => "emotional"
  | difficulty => "difficulty"

/-- The category with a given name. -/
def ofName? (name : String) : Option Category := all.find? fun category => category.name = name

@[simp]
theorem ofName?_name (category : Category) : ofName? category.name = some category := by
  cases category <;> decide

end Category

/-- One value for each category. -/
@[ext]
structure Categorized (α : Type u) where
  /-- The value for the body. -/
  physiological : α
  /-- The value for the mind. -/
  emotional : α
  /-- The value for the difficulty of the story. -/
  difficulty : α
deriving DecidableEq, Repr

namespace Categorized

variable {α : Type u} {β : Type v}

/-- The value for a category. -/
def get (values : Categorized α) : Category → α
  | .physiological => values.physiological
  | .emotional => values.emotional
  | .difficulty => values.difficulty

/-- Replace the value for a category. -/
def set (values : Categorized α) (category : Category) (value : α) : Categorized α :=
  match category with
  | .physiological => { values with physiological := value }
  | .emotional => { values with emotional := value }
  | .difficulty => { values with difficulty := value }

/-- The values given by a function of the category. -/
def ofFn (f : Category → α) : Categorized α :=
  ⟨f .physiological, f .emotional, f .difficulty⟩

/-- The categories with their values, in order. -/
def toList (values : Categorized α) : List (Category × α) :=
  Category.all.map fun category => (category, values.get category)

@[simp]
theorem get_ofFn (f : Category → α) (category : Category) : (ofFn f).get category = f category := by
  cases category <;> rfl

theorem get_set (values : Categorized α) (category other : Category) (value : α) :
    (values.set category value).get other =
      if category = other then value else values.get other := by
  cases category <;> cases other <;> rfl

theorem ext_get {x y : Categorized α} (h : ∀ category, x.get category = y.get category) : x = y :=
  Categorized.ext (h .physiological) (h .emotional) (h .difficulty)

end Categorized

end Narrative
