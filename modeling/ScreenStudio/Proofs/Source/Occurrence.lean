/- digest: The names in a program, each with the binders that are visible where it stands. -/

import ScreenStudio.Source.Syntax

set_option autoImplicit false
set_option relaxedAutoImplicit false

namespace ScreenStudio.Source

/-- What binds a name: the vocabulary, a parameter of an arrow function, or a declaration. -/
inductive Binder
  | vocabulary (name : String)
  | parameter (arrow : Span) (index : Nat) (name : String)
  | declaration (span : Span) (name : String) (value : Expression)

def Binder.name : Binder → String
  | .vocabulary name => name
  | .parameter _ _ name => name
  | .declaration _ name _ => name

/-- A name where it is used, with the binders that are visible there, the innermost first. -/
structure Occurrence where
  span : Span
  name : String
  visible : List Binder

/-- Something visible has the name. -/
def Occurrence.IsBound (occurrence : Occurrence) : Prop :=
  ∃ binder ∈ occurrence.visible, binder.name = occurrence.name

/-- The parameters of an arrow function. The last one is the innermost. -/
def parameterBinders (arrow : Span) (parameters : List String) : List Binder :=
  (parameters.zipIdx.map (fun entry => .parameter arrow entry.2 entry.1)).reverse

/-- What a statement makes visible to the ones behind it. -/
def Statement.binders : Statement → List Binder
  | .binding span name value => [.declaration span name value]
  | _ => []

mutual

/-- The names that are used in an expression, in the order in which they stand. -/
def Expression.occurrences (visible : List Binder) : Expression → List Occurrence
  | .literal _ _ => []
  | .array _ items => Expression.listOccurrences visible items
  | .object _ entries => Expression.entryOccurrences visible entries
  | .name span name => [⟨span, name, visible⟩]
  | .member _ target _ => target.occurrences visible
  | .index _ target key => target.occurrences visible ++ key.occurrences visible
  | .call _ callee arguments =>
    callee.occurrences visible ++ Expression.listOccurrences visible arguments
  | .arrow span parameters body => body.occurrences (parameterBinders span parameters ++ visible)
  | .unary _ _ operand => operand.occurrences visible
  | .binary _ _ left right => left.occurrences visible ++ right.occurrences visible
  | .conditional _ condition consequent alternative =>
    condition.occurrences visible ++ (consequent.occurrences visible ++ alternative.occurrences visible)

def Expression.listOccurrences (visible : List Binder) : List Expression → List Occurrence
  | [] => []
  | item :: rest => item.occurrences visible ++ Expression.listOccurrences visible rest

def Expression.entryOccurrences (visible : List Binder) : List (String × Expression) → List Occurrence
  | [] => []
  | (_, item) :: rest => item.occurrences visible ++ Expression.entryOccurrences visible rest

def Body.occurrences (visible : List Binder) : Body → List Occurrence
  | .expression value => value.occurrences visible
  | .block statements => Statement.listOccurrences visible statements

def Statement.occurrences (visible : List Binder) : Statement → List Occurrence
  | .binding _ _ value => value.occurrences visible
  | .expression _ value => value.occurrences visible
  | .branch _ condition consequent none =>
    condition.occurrences visible ++ Statement.listOccurrences visible consequent
  | .branch _ condition consequent (some alternative) =>
    condition.occurrences visible ++
      (Statement.listOccurrences visible consequent ++ Statement.listOccurrences visible alternative)
  | .result _ none => []
  | .result _ (some value) => value.occurrences visible

/-- The names that are used in a block, whose declarations are visible to the statements behind them. -/
def Statement.listOccurrences (visible : List Binder) : List Statement → List Occurrence
  | [] => []
  | statement :: rest =>
    statement.occurrences visible ++ Statement.listOccurrences (statement.binders ++ visible) rest

end

end ScreenStudio.Source
