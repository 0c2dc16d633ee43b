import AdvisoryGate.Number.Double
import AdvisoryGate.Text.Order

/-!
# JSON values

A JSON value as it is written, with the members of an object in their order
and repeats kept. As far as JSON goes, the order of members means nothing
and of repeated ones only the last counts: `Value.canonical` puts a value
into the form in which values with the same meaning are equal.
-/

namespace AdvisoryGate.Json

inductive Value
  | null
  | boolean (b : Bool)
  /-- A number, as the digits and the power of ten it is written with. -/
  | number (negative : Bool) (x : Double.Decimal)
  | string (text : String)
  | array (items : List Value)
  | object (members : List (String × Value))

namespace Value

/-! ## Equality -/

mutual

/-- Whether two values are written the same way. -/
def same : Value → Value → Bool
  | .null, .null => true
  | .boolean a, .boolean b => a = b
  | .number n x, .number m y => n = m ∧ x = y
  | .string s, .string t => s = t
  | .array as, .array bs => sameItems as bs
  | .object as, .object bs => sameMembers as bs
  | _, _ => false

def sameItems : List Value → List Value → Bool
  | [], [] => true
  | a :: as, b :: bs => same a b && sameItems as bs
  | _, _ => false

def sameMembers : List (String × Value) → List (String × Value) → Bool
  | [], [] => true
  | (n, a) :: as, (m, b) :: bs => n = m && same a b && sameMembers as bs
  | _, _ => false

end

mutual

theorem same_iff : ∀ a b : Value, a.same b = true ↔ a = b
  | .null, b => by cases b <;> simp [same]
  | .boolean _, b => by cases b <;> simp [same]
  | .number _ _, b => by cases b <;> simp [same]
  | .string _, b => by cases b <;> simp [same]
  | .array as, b => by cases b <;> simp [same, sameItems_iff as]
  | .object as, b => by cases b <;> simp [same, sameMembers_iff as]

theorem sameItems_iff : ∀ as bs : List Value, sameItems as bs = true ↔ as = bs
  | [], bs => by cases bs <;> simp [sameItems]
  | a :: as, bs => by cases bs <;> simp [sameItems, same_iff a, sameItems_iff as]

theorem sameMembers_iff : ∀ as bs : List (String × Value), sameMembers as bs = true ↔ as = bs
  | [], bs => by cases bs <;> simp [sameMembers]
  | (n, a) :: as, bs => by
    cases bs <;> simp [sameMembers, same_iff a, sameMembers_iff as, Prod.ext_iff]

end

instance : DecidableEq Value := fun a b => decidable_of_iff _ (same_iff a b)

/-! ## Meaning -/

/-- Put a member among members in ascending order of their names, in place
of one of the same name. -/
def insertMember (name : String) (v : Value) : List (String × Value) → List (String × Value)
  | [] => [(name, v)]
  | (n, w) :: ms =>
    match Text.order name n with
    | .lt => (name, v) :: (n, w) :: ms
    | .eq => (name, v) :: ms
    | .gt => (n, w) :: insertMember name v ms

mutual

/-- The value with the members of each object in ascending order, each name
once and with its last value. -/
def canonical : Value → Value
  | .array items => .array (canonicalItems items)
  | .object members => .object (canonicalMembers [] members)
  | .null => .null
  | .boolean b => .boolean b
  | .number negative x => .number negative x
  | .string text => .string text

def canonicalItems : List Value → List Value
  | [] => []
  | v :: vs => v.canonical :: canonicalItems vs

/-- Insert members one after the other. -/
def canonicalMembers (done : List (String × Value)) :
    List (String × Value) → List (String × Value)
  | [] => done
  | (name, v) :: ms => canonicalMembers (insertMember name v.canonical done) ms

end

end Value

end AdvisoryGate.Json
