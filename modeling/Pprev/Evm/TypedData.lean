import Pprev.Evm.Word
import Mathlib.Data.List.Sort
import Mathlib.Data.List.Dedup

/-!
# Encodings of Solidity values

The ABI encoding of static values, and the hashing of typed structured data (EIP-712): the type
string of a struct lists its members and is followed by those of the structs it refers to, sorted
by name; a member that is itself a struct enters the encoding as its hash, a text as the hash of
its bytes.
-/

namespace Evm

/-- A value of an elementary static type. -/
inductive Atom where
  | bytes32 (w : Bytes32)
  | uint (bits : ℕ) (x : BitVec bits)
  | address (a : Address)

namespace Atom

def type : Atom → String
  | bytes32 _ => "bytes32"
  | uint bits _ => "uint" ++ toString bits
  | address _ => "address"

/-- Numbers and addresses are extended on the left. -/
def word : Atom → Bytes32
  | bytes32 w => w
  | uint _ x => x.setWidth 256
  | address a => wordOfAddress a

end Atom

/-! ## Static values -/

/-- An argument of `abi.encode`; a struct is the tuple of its members. -/
inductive Abi where
  | atom (a : Atom)
  | tuple (xs : List Abi)

mutual

/-- A static tuple has no head of its own: its members follow one another. -/
def Abi.words : Abi → List Bytes32
  | .atom a => [a.word]
  | .tuple xs => Abi.wordsAll xs

def Abi.wordsAll : List Abi → List Bytes32
  | [] => []
  | x :: xs => x.words ++ Abi.wordsAll xs

end

/-! ## Typed structured data -/

mutual

inductive Value where
  | atom (a : Atom)
  | text (s : String)
  | struct (name : String) (members : Members)

/-- The named members of a struct, in the order of their declaration. -/
inductive Members where
  | nil
  | cons (name : String) (value : Value) (members : Members)

end

/-- The members of a list of pairs. -/
def Members.ofList : List (String × Value) → Members
  | [] => nil
  | (name, value) :: rest => cons name value (ofList rest)

def Value.type : Value → String
  | .atom a => a.type
  | .text _ => "string"
  | .struct name _ => name

def Members.declarations : Members → List String
  | nil => []
  | cons name value rest => (value.type ++ " " ++ name) :: rest.declarations

/-- `name(type₁ member₁,..)`. -/
def declaration (name : String) (members : Members) : String :=
  name ++ "(" ++ ",".intercalate members.declarations ++ ")"

mutual

/-- The structs in a value, by name, each with its declaration. -/
def Value.structs : Value → List (String × String)
  | .atom _ => []
  | .text _ => []
  | .struct name members => (name, declaration name members) :: members.structs

def Members.structs : Members → List (String × String)
  | .nil => []
  | .cons _ value rest => value.structs ++ rest.structs

end

/-- The structs a struct refers to, each once, sorted by name. -/
def referenced (name : String) (members : Members) : List (String × String) :=
  ((members.structs.filter (·.1 ≠ name)).dedup).insertionSort (·.1 ≤ ·.1)

def encodeType (name : String) (members : Members) : String :=
  declaration name members ++ String.join ((referenced name members).map (·.2))

section

variable (keccak256 : Bytes → Bytes32) (utf8 : String → Bytes)

mutual

/-- What a value is encoded to as a member; for a struct its `hashStruct`. -/
def Value.encode : Value → Bytes32
  | .atom a => a.word
  | .text s => keccak256 (utf8 s)
  | .struct name members =>
    keccak256 (abiEncode (keccak256 (utf8 (encodeType name members)) :: members.encodeData))

def Members.encodeData : Members → List Bytes32
  | .nil => []
  | .cons _ value rest => value.encode :: rest.encodeData

end

/-- The signing hash of a struct under a domain. -/
def signingHash (domain value : Value) : Bytes32 :=
  keccak256 ([0x19, 0x01] ++ wordBytes (domain.encode keccak256 utf8) ++
    wordBytes (value.encode keccak256 utf8))

variable {keccak256 utf8}

/-- A member counts only by what it is encoded to, so a struct may be replaced by its hash. -/
theorem Members.encodeData_ofList (xs : List (String × Value)) :
    (ofList xs).encodeData keccak256 utf8 = xs.map fun x => x.2.encode keccak256 utf8 := by
  induction xs with
  | nil => rfl
  | cons x xs ih => exact congrArg _ ih

theorem Members.declarations_ofList (xs : List (String × Value)) :
    (ofList xs).declarations = xs.map fun x => x.2.type ++ " " ++ x.1 := by
  induction xs with
  | nil => rfl
  | cons x xs ih => exact congrArg _ ih

theorem Members.structs_ofList (xs : List (String × Value)) :
    (ofList xs).structs = xs.flatMap fun x => x.2.structs := by
  induction xs with
  | nil => rfl
  | cons x xs ih => exact congrArg _ ih

end

end Evm
