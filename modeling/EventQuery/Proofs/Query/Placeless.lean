import EventQuery.Query.Tree

set_option autoImplicit false

namespace EventQuery

/-- The values of located tokens. -/
def values (tokens : List (Located Token)) : List Token := tokens.map (·.value)

@[simp] theorem values_append (front back : List (Located Token)) :
    values (front ++ back) = values front ++ values back := List.map_append

@[simp] theorem length_values (tokens : List (Located Token)) :
    (values tokens).length = tokens.length := List.length_map ..

/-- A token at no place in particular. -/
def Located.placeless {α : Type} (t : Located α) : Located α := ⟨t.value, .origin⟩

theorem Located.placeless_eq {α : Type} {t u : Located α} (same : t.value = u.value) :
    t.placeless = u.placeless := by
  rw [placeless, placeless, same]

namespace Query

mutual

/-- The tree with all its tokens at no place in particular. -/
def placeless : Query → Query
  | node kind children token value =>
    .node kind (placelessAll children) (token.map Located.placeless) value

def placelessAll : List Query → List Query
  | [] => []
  | q :: rest => placeless q :: placelessAll rest

end

/-- Two trees differ in the places of their tokens only. -/
def SameButPlaces (q r : Query) : Prop := q.placeless = r.placeless

namespace SameButPlaces

theorem leaf {kind : Kind} {t t' : Located Token} (same : t.value = t'.value) :
    SameButPlaces (.leaf kind t) (.leaf kind t') := by
  simp only [SameButPlaces, Query.leaf, placeless, Option.map_some, Located.placeless_eq same]

theorem unary {kind : Kind} {inner inner' : Query} (same : SameButPlaces inner inner') :
    SameButPlaces (.branch kind [inner]) (.branch kind [inner']) := by
  unfold SameButPlaces at same ⊢
  simp only [Query.branch, placeless, placelessAll, same]

theorem binary {kind : Kind} {left left' right right' : Query}
    (first : SameButPlaces left left') (second : SameButPlaces right right') :
    SameButPlaces (.branch kind [left, right]) (.branch kind [left', right']) := by
  unfold SameButPlaces at first second ⊢
  simp only [Query.branch, placeless, placelessAll, first, second]

theorem ofBinding {relation relation' name name' : Located Token}
    (sameRelation : relation.value = relation'.value) (sameName : name.value = name'.value) :
    SameButPlaces (.ofBinding relation name) (.ofBinding relation' name') :=
  binary (leaf sameRelation) (leaf sameName)

theorem ofReference {name name' property property' : Located Token}
    (sameName : name.value = name'.value) (sameProperty : property.value = property'.value) :
    SameButPlaces (.ofReference name property) (.ofReference name' property') :=
  binary (leaf sameName) (leaf sameProperty)

theorem ofPredicate {left left' right right' : Query} {op op' : Located Token}
    (first : SameButPlaces left left') (same : op.value = op'.value)
    (second : SameButPlaces right right') :
    SameButPlaces (.ofPredicate left op right) (.ofPredicate left' op' right') := by
  have middle : SameButPlaces (.leaf .comparison op) (.leaf .comparison op') := leaf same
  unfold SameButPlaces at first middle second ⊢
  simp only [Query.ofPredicate, Query.branch, placeless, placelessAll, first, middle, second]

theorem ofValue (number : Float) (span span' : Span) :
    SameButPlaces (.ofValue number span) (.ofValue number span') := rfl

end SameButPlaces

end Query

end EventQuery
