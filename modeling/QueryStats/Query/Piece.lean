import QueryStats.Query.Bucketing
import QueryStats.Query.Call

/-!
# Pieces of a query

Reading a query cuts its masked text into pieces, without a cell lost or read twice: calls,
grouping keywords, what stands in the list after such a keyword, and single cells of anything else.
-/

namespace QueryStats.Query

/-- A piece of masked text, and what it was read as. -/
inductive Piece where
  /-- A cell that means nothing to the reader. -/
  | other (x : Cell)
  /-- A call, and whether it asks for an aggregation. -/
  | call (text : List Cell) (call : Call) (requested : Bool)
  /-- A grouping keyword, and whether a list of what to group by follows it. -/
  | keyword (text : List Cell) (opens : Bool)
  /-- The commas and the white space before an item of such a list. -/
  | gap (text : List Cell)
  | field (text : List Cell)
  /-- A name in the list that turned out to be the name of a call, which ends the list. -/
  | callee (text : List Cell)
  | bucketing (text : List Cell) (bucketing : Bucketing)
  deriving DecidableEq, Repr

namespace Piece

def text : Piece → List Cell
  | other x => [x]
  | call text _ _ => text
  | keyword text _ => text
  | gap text => text
  | field text => text
  | callee text => text
  | bucketing text _ => text

@[simp] theorem text_other (x : Cell) : (other x).text = [x] := rfl

@[simp] theorem text_call (t : List Cell) (c : Call) (requested : Bool) :
    (call t c requested).text = t := rfl

@[simp] theorem text_keyword (t : List Cell) (opens : Bool) : (keyword t opens).text = t := rfl

@[simp] theorem text_gap (t : List Cell) : (gap t).text = t := rfl

@[simp] theorem text_field (t : List Cell) : (field t).text = t := rfl

@[simp] theorem text_callee (t : List Cell) : (callee t).text = t := rfl

@[simp] theorem text_bucketing (t : List Cell) (b : Bucketing) : (bucketing t b).text = t := rfl

/-- The call of a piece that asks for an aggregation. -/
def requested? : Piece → Option Call
  | call _ c true => some c
  | _ => none

/-- The field of a piece, as written. -/
def field? : Piece → Option (List Cell)
  | field text => some text
  | _ => none

def bucketing? : Piece → Option Bucketing
  | bucketing _ b => some b
  | _ => none

end Piece

/-- The cells of some pieces in a row. -/
def texts (ps : List Piece) : List Cell := ps.flatMap Piece.text

@[simp] theorem texts_nil : texts [] = [] := rfl

@[simp] theorem texts_cons (p : Piece) (ps : List Piece) : texts (p :: ps) = p.text ++ texts ps :=
  List.flatMap_cons

end QueryStats.Query
