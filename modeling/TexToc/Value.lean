import TexToc.Text.Numeral

/-!
Request values.

Settings and outline entries reach the library as structured data of the usual document
kinds: null, truth values, integers, reals, strings, arrays and objects with named fields.
An integer and a real are told apart by how they are written, and a real keeps its decimal
form exactly; the infinities and the undefined value are reals too. Reading such a value
into a typed record is the job of the checks in `TexToc.Check`.

* `Value`: the data.
* `Value.field?`: a field of an object, telling an absent field from a null one.
-/

namespace TexToc

/-- Structured request data: null, a truth value, an integer, a real, a string, an array or
an object. -/
inductive Value where
  | null
  | bool (b : Bool)
  | int (n : Int)
  | real (x : Text.RealNumeral)
  | str (s : String)
  | arr (items : List Value)
  | obj (fields : List (String × Value))
  deriving Repr, BEq, Inhabited

namespace Value

/-- The value of a field of an object; nothing when the field is absent or the value is
not an object. A field that is present and null gives `some null`. -/
def field? (v : Value) (name : String) : Option Value :=
  match v with
  | .obj fields => fields.lookup name
  | _ => none

end Value

end TexToc
