import FleetLedger.Document.Filter
import FleetLedger.Sql.Statement

/-!
# Predicates

What a filter says of a document is said to the database by a predicate on the row that holds it.
Predicates are kept as trees.  The language binds `NOT` closer than `AND`, and `AND` closer than `OR`,
so wherever a junction becomes a part of something it is put in parentheses, which are nodes of the
tree: the text of a tree reads as the tree.

A missing field has no value, and comparing no value is neither true nor false.  A filter that asks for
null means missing fields, too, so this one has a predicate with two halves.
-/

namespace FleetLedger.Sql

/-- Comparisons with a value. -/
inductive Comparison where
  | equal
  | atLeast
  | less
  | atMost
  deriving Repr, DecidableEq

/-- The sign of a comparison. -/
def Comparison.sign : Comparison → String
  | equal => "="
  | atLeast => ">="
  | less => "<"
  | atMost => "<="

/-- A predicate on a row. -/
inductive Predicate where
  | constant (truth : Bool)
  /-- The row belongs to a collection. -/
  | inCollection (name : String)
  /-- The field is missing. -/
  | missing (field : String)
  /-- The field is there and null. -/
  | isNull (field : String)
  | compare (field : String) (comparison : Comparison) (value : Json)
  /-- The field equals one of the values, of which there is at least one. -/
  | among (field : String) (values : List Json)
  | hasField (field : String)
  /-- The field's text has a match, whatever the case of its letters. -/
  | like (field pattern : String)
  | not (p : Predicate)
  | and (ps : List Predicate)
  | or (ps : List Predicate)
  /-- The predicate in parentheses. -/
  | group (p : Predicate)

namespace Predicate

/-- The column that holds the document. -/
def column : String := "doc"

/-! ## From filters -/

/-- A junction as a part of something; an empty one is a constant. -/
def junction (junction : List Predicate → Predicate) (empty : Bool) :
    List Predicate → Predicate
  | [] => constant empty
  | ps => group (junction ps)

mutual

/-- The predicate for a filter. -/
def ofFilter : Filter → Predicate
  | .all => constant true
  | .eq f .null => group (or [missing f, isNull f])
  | .eq f v => compare f .equal v
  | .isIn _ [] => constant false
  | .isIn f vs => among f vs
  | .gte f b => compare f .atLeast b
  | .lt f b => compare f .less b
  | .lte f b => compare f .atMost b
  | .has f true => hasField f
  | .has f false => not (hasField f)
  | .like f p => like f p
  | .and fs => junction and true (ofFilters fs)
  | .or fs => junction or false (ofFilters fs)

/-- The predicates for several filters. -/
def ofFilters : List Filter → List Predicate
  | [] => []
  | f :: fs => ofFilter f :: ofFilters fs

end

/-- Holds of the rows of a collection that a filter holds of. -/
def scope (collection : String) (f : Filter) : Predicate :=
  and [inCollection collection, ofFilter f]

/-! ## Text -/

mutual

/-- The text of a predicate. -/
def pieces : Predicate → Statement
  | constant truth => [.word (if truth then "TRUE" else "FALSE")]
  | inCollection name => [.word "collection = ", .value (.text name)]
  | missing f => Statement.field column f ++ [.word " IS NULL"]
  | isNull f => Statement.field column f ++ [.word " = ", .literal "null", .word "::jsonb"]
  | compare f c v =>
    Statement.field column f ++ [.word (" " ++ c.sign ++ " "), .value (.jsonb v)]
  | among f vs =>
    Statement.field column f ++ .word " IN (" ::
      Statement.separatedBy ", " (vs.map fun v => [.value (.jsonb v)]) ++ [.word ")"]
  | hasField f => [.word ("jsonb_exists(" ++ column ++ ", "), .literal f, .word ")"]
  | like f p => Statement.fieldText column f ++ [.word " ~* ", .value (.text p)]
  | not p => .word "NOT " :: pieces p
  | and ps => Statement.separatedBy " AND " (piecesOf ps)
  | or ps => Statement.separatedBy " OR " (piecesOf ps)
  | group p => .word "(" :: pieces p ++ [.word ")"]

/-- The texts of several predicates. -/
def piecesOf : List Predicate → List Statement
  | [] => []
  | p :: ps => pieces p :: piecesOf ps

end

end Predicate

end FleetLedger.Sql
