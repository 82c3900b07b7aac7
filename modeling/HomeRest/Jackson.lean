import HomeRest.Beans
import HomeRest.Entity
import HomeRest.HexGroups

/-! What the entities rely on in Jackson: a JSON member for each getter, a setter call for
each member. Values of one Java type are read back as they were written, so no digit and
no millisecond is lost. -/
namespace HomeRest

/-- A JSON value of the entities; a number is its value. -/
inductive Json
  | null
  | string (s : String)
  | number (d : ℚ)
  deriving DecidableEq

/-- How values of one Java type are written, and read if possible. -/
structure Scalar (β : Type) where
  write : β → Json
  read : Json → Option β
  read_write : ∀ b, read (write b) = some b
  write_set : ∀ b, write b ≠ .null

/-- Jackson, with the two formatters that the entities name. -/
structure Jackson where
  uuid : Scalar UUID
  decimal : Scalar ℚ
  byte : Scalar Int8
  calendar : Scalar Millis
  integer : Scalar ℤ
  text : Scalar String
  /-- `ByLocaleTimeStampSerializerUtils`, in the time zone of the process. -/
  timeStamp : Millis → String
  /-- `ByLocaleDateSerializerUtils`. -/
  date : Millis → String

namespace Scalar

variable {β : Type} (S : Scalar β)

def nullable : Option β → Json
  | none => .null
  | some b => S.write b

def readNullable (v : Json) : Except Throwable (Option β) :=
  if v = .null then .ok none
  else match S.read v with
    | some b => .ok (some b)
    | none => .error (.plain .jsonMapping (.text "Cannot deserialize value"))

theorem readNullable_nullable (b : Option β) : S.readNullable (S.nullable b) = .ok b := by
  cases b with
  | none => rfl
  | some b => simp [nullable,readNullable,S.write_set b,S.read_write b]

theorem nullable_injective : Function.Injective S.nullable := by
  intro b b' h
  have hread := congrArg S.readNullable h
  rw [S.readNullable_nullable,S.readNullable_nullable] at hread
  exact Except.ok.inj hread

def inMapping {α : Type} (x : Except Throwable α) : Except Throwable α :=
  x.mapError fun e => .caused .jsonMapping e.message e

def property {α : Type} (name : String) (get : α → Option β)
    (set : Option β → α → Except Throwable α) : Beans.Property α Json Throwable where
  name := name
  get a := S.nullable (get a)
  set v a := do
    let b ← S.readNullable v
    inMapping (set b a)

variable {α : Type} {S} {properties : List (Beans.Property α Json Throwable)}
  {name : String} {get : α → Option β} {set : Option β → α → Except Throwable α}

theorem takes {b : α} (h : ∀ a, ∃ a', set (get b) a = .ok a' ∧ get a' = get b ∧
      ∀ q ∈ properties, q.name ≠ name → q.get a' = q.get a) :
    Beans.Takes properties (S.property name get set) ((S.property name get set).get b) := by
  intro a
  obtain ⟨a',hset,hget,hothers⟩ := h a
  refine ⟨a',?_,?_,hothers⟩
  · simp [property,S.readNullable_nullable,hset,bind,Except.bind,inMapping,Except.mapError]
  · simp [property,hget]

end Scalar

/-! ### A mapper for concrete runs, with the clock at the first second of 1970 in UTC -/

namespace Sample

def wholeNumber : Scalar ℤ where
  write n := .number n
  read
    | .number d => if d.den = 1 then some d.num else none
    | _ => none
  read_write n := by simp
  write_set n := by simp

def jackson : Jackson where
  uuid := {
    write := fun u => .string (HexGroups.text [8,4,4,4,12] u.toNat)
    read := fun
      | .string s => (HexGroups.parse [8,4,4,4,12] s).map (BitVec.ofNat 128)
      | _ => none
    read_write := fun u => by
      have hu : u.toNat < 16^([8,4,4,4,12] : List ℕ).sum := u.isLt
      simp [HexGroups.parse_text (by simp) hu]
    write_set := by simp}
  decimal := {
    write := .number
    read := fun
      | .number d => some d
      | _ => none
    read_write := fun _ => rfl
    write_set := by simp}
  byte := {
    write := fun k => wholeNumber.write k.toInt
    read := fun v => (wholeNumber.read v).map Int8.ofInt
    read_write := fun k => by simp [wholeNumber.read_write]
    write_set := fun k => wholeNumber.write_set k.toInt}
  calendar := wholeNumber
  integer := wholeNumber
  text := {
    write := .string
    read := fun
      | .string s => some s
      | _ => none
    read_write := fun _ => rfl
    write_set := by simp}
  timeStamp ms := "1970-01-01T00:00:00." ++ String.ofList
    [Nat.digitChar (ms.toNat/100),Nat.digitChar (ms.toNat/10%10),Nat.digitChar (ms.toNat%10)] ++ "Z"
  date _ := "1970-01-01"

end Sample

end HomeRest
