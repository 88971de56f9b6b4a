/-! JSON values and their texts. The fields of an object keep their order. -/

set_option autoImplicit false

namespace ShaderDefs

inductive Json where
  | null
  | bool (value : Bool)
  | number (value : Int)
  /-- A number written with so many digits after its decimal point. -/
  | decimal (digits : Int) (places : Nat)
  | string (text : String)
  | array (items : List Json)
  | object (fields : List (String × Json))
  deriving Inhabited

namespace Json

def hexByte (value : Nat) : String :=
  .ofList [Nat.digitChar (value / 16 % 16), Nat.digitChar (value % 16)]

def escape (character : Char) : String :=
  match character with
  | '"' => "\\\""
  | '\\' => "\\\\"
  | '\x08' => "\\b"
  | '\t' => "\\t"
  | '\n' => "\\n"
  | '\x0c' => "\\f"
  | '\r' => "\\r"
  | other => if other.toNat < 0x20 then "\\u00" ++ hexByte other.toNat else other.toString

def quote (text : String) : String := "\"" ++ String.join (text.toList.map escape) ++ "\""

def writeDecimal (digits : Int) (places : Nat) : String :=
  let power := Nat.pow 10 places
  let fraction := toString (digits.natAbs % power)
  (if digits < 0 then "-" else "") ++ toString (digits.natAbs / power) ++ "." ++
    String.ofList (List.replicate (places - fraction.length) '0') ++ fraction

mutual

def compress : Json → String
  | .null => "null"
  | .bool value => if value then "true" else "false"
  | .number value => value.repr
  | .decimal digits places => writeDecimal digits places
  | .string text => quote text
  | .array items => "[" ++ ",".intercalate (compressItems items) ++ "]"
  | .object fields => "\x7b" ++ ",".intercalate (compressFields fields) ++ "\x7d"

def compressItems : List Json → List String
  | [] => []
  | item :: rest => item.compress :: compressItems rest

def compressFields : List (String × Json) → List String
  | [] => []
  | (name, value) :: rest => (quote name ++ ":" ++ value.compress) :: compressFields rest

end

def indent (level : Nat) : String := String.ofList (List.replicate (2 * level) ' ')

def block (level : Nat) (opening closing : String) (entries : List String) : String :=
  if entries.isEmpty then opening ++ closing
  else
    opening ++ "\n" ++ ",\n".intercalate (entries.map (indent (level + 1) ++ ·)) ++ "\n" ++
      indent level ++ closing

mutual

def prettyAt (level : Nat) : Json → String
  | .array items => block level "[" "]" (prettyItems (level + 1) items)
  | .object fields => block level "\x7b" "\x7d" (prettyFields (level + 1) fields)
  | .null => "null"
  | .bool value => if value then "true" else "false"
  | .number value => value.repr
  | .decimal digits places => writeDecimal digits places
  | .string text => quote text

def prettyItems (level : Nat) : List Json → List String
  | [] => []
  | item :: rest => prettyAt level item :: prettyItems level rest

def prettyFields (level : Nat) : List (String × Json) → List String
  | [] => []
  | (name, value) :: rest => (quote name ++ ": " ++ prettyAt level value) :: prettyFields level rest

end

def pretty (json : Json) : String := json.prettyAt 0

def field? (name : String) : List (String × Json) → Option Json
  | [] => none
  | (other, value) :: rest => if other = name then some value else field? name rest

def fields? (names : List String) : Json → Option (List Json)
  | .object fields => names.mapM (field? · fields)
  | _ => none

/-- The values of the named fields. A record may also be given as the array of exactly these
values. -/
def record? (names : List String) : Json → Option (List Json)
  | .array items => if items.length = names.length then some items else none
  | json => json.fields? names

/-- A choice is an object whose only field is named for the alternative. -/
def choice? : Json → Option (String × Json)
  | .object [(name, value)] => some (name, value)
  | _ => none

def text? : Json → Option String
  | .string text => some text
  | _ => none

def items? : Json → Option (List Json)
  | .array items => some items
  | _ => none

theorem sizeOf_lt_of_field? {name : String} {fields : List (String × Json)} {value : Json}
    (found : field? name fields = some value) : sizeOf value < sizeOf fields := by
  fun_induction field? name fields with
  | case1 => simp at found
  | case2 => simp_all; omega
  | case3 _ _ rest _ ih =>
    have := ih found
    simp only [List.cons.sizeOf_spec]
    omega

theorem sizeOf_lt_of_mem_fields? {names : List String} {json value : Json} {values : List Json}
    (found : json.fields? names = some values) (member : value ∈ values) :
    sizeOf value < sizeOf json := by
  cases json with
  | object fields =>
    simp only [fields?] at found
    have each : ∀ item ∈ values, sizeOf item < sizeOf fields := by
      clear member
      induction names generalizing values with
      | nil => simp_all
      | cons name rest ih =>
        simp only [List.mapM_cons, Option.bind_eq_bind, Option.bind_eq_some_iff, Option.pure_def,
          Option.some.injEq] at found
        obtain ⟨first, firstFound, others, othersFound, rfl⟩ := found
        intro item itemMember
        rcases List.mem_cons.1 itemMember with rfl | itemMember
        · exact sizeOf_lt_of_field? firstFound
        · exact ih othersFound item itemMember
    have := each value member
    simp only [Json.object.sizeOf_spec]
    omega
  | null | bool | number | decimal | string | array => simp [fields?] at found

theorem sizeOf_lt_of_choice? {json value : Json} {name : String}
    (found : json.choice? = some (name, value)) : sizeOf value < sizeOf json := by
  unfold choice? at found
  split at found
  · simp only [Option.some.injEq, Prod.mk.injEq] at found
    obtain ⟨rfl, rfl⟩ := found
    simp only [Json.object.sizeOf_spec, List.cons.sizeOf_spec, Prod.mk.sizeOf_spec]
    omega
  · simp at found

end Json

end ShaderDefs
