import Mathlib.Data.List.DropRight
import AbiWrapper.Lib.MulHash
import AbiWrapper.Ref.HeaderNames

/-!
# The slots of the vtable (generate.py, layout_hash.py)

What one half calls and the other one provides is a struct of function pointers,
which the generator declares in `mpiwrapper_vtable.h`: one slot for each entry
point that the ABI's header has, but for those that MPI-3.0 deleted. These are
aliases, and reach the slot of the entry point that replaced them. The halves are
compiled apart and may come of different headers, so the text of the declarations,
without its comments and white space, is hashed, and the hash is compiled into
both.

`mpiwrapper_vtable.h` is modelled from the struct's beginning to its end, and
`entrypoints.c` and `wrappers.c` by what they say of slots: which one a forwarder
calls, and which function fills it.
-/

namespace AbiWrapper.Ref

open AbiWrapper.Lib

/-! ## Entry points -/

/-- A parameter of a prototype. An ellipsis has it for a type and a name. -/
structure AbiParam where
  base : Text
  name : Text
  suffix : Text
deriving DecidableEq, Repr

structure AbiEntryPoint where
  name : Text
  ret : Text
  params : List AbiParam
deriving DecidableEq, Repr

def isPmpi (name : Text) : Bool := ['P', 'M', 'P', 'I'].isPrefixOf name

def unshifted (name : Text) : Text := if isPmpi name then name.drop 1 else name

def shifted (name : Text) : Text := 'P' :: name

/-- The prototypes of a header, and the `ABI_ALIAS` that goes with it. -/
structure AbiHeader where
  entries : List AbiEntryPoint
  aliases : List (Text × Text)

namespace AbiHeader

variable (H : AbiHeader)

def names : List Text := H.entries.map AbiEntryPoint.name

/-- What `assign_status` finds in `ABI_ALIAS`, for both names of a pair. -/
def aliasOf (name : Text) : Option Text := H.aliases.lookup (unshifted name)

/-- The entry points that have a slot. -/
def slots : List AbiEntryPoint := H.entries.filter fun ep => (H.aliasOf ep.name).isNone

/-- The slot that the forwarder of an entry point calls (`emit_entrypoints_c`). -/
def forwardedSlot (name : Text) : Text :=
  match H.aliasOf name with
  | some target => (if ['P', 'M', 'P', 'I', '_'].isPrefixOf name then ['P'] else []) ++ target
  | none => name

/-- `w_`, or `mpiwrapper_w_` where the body is written by hand. -/
def bodyPrefix (handwritten : Text → Bool) (name : Text) : Text :=
  if handwritten name then "mpiwrapper_w_".toList else "w_".toList

/-- The designated initializers of the table (`emit_wrappers_c`). -/
def initializers (handwritten : Text → Bool) : List (Text × Text) :=
  (H.entries.filter fun ep => !isPmpi ep.name).flatMap fun ep =>
    if (H.aliasOf ep.name).isSome then []
    else [ep.name, shifted ep.name].map fun n => (n, bodyPrefix handwritten ep.name ++ n)

/-- The table as it is compiled. A slot that no initializer names is null. -/
def vtableInstance (handwritten : Text → Bool) : List (Option Text) :=
  H.slots.map fun ep => (H.initializers handwritten).lookup ep.name

end AbiHeader

/-! ## Text -/

/-- What `str.isspace` and `\s` hold to be white space. -/
def isSpace (c : Char) : Bool :=
  let n := c.toNat
  (9 ≤ n && n ≤ 13) || (28 ≤ n && n ≤ 32) || n == 0x85 || n == 0xa0 || n == 0x1680 ||
    (0x2000 ≤ n && n ≤ 0x200a) || n == 0x2028 || n == 0x2029 || n == 0x202f || n == 0x205f ||
    n == 0x3000

def rstrip (text : Text) : Text := text.rdropWhile isSpace

/-- The longest of the arguments; there is one. -/
def widest (args : List Text) : Nat := (args.map List.length).foldl max 0

/-- An argument and what follows it. -/
def wrapPiece (tail a : Text) (last : Bool) : Text := a ++ if last then ')' :: tail else [',']

/-- What stands between two arguments of one line. -/
def wrapGap (last : Bool) : Text := if last then [] else [' ']

/-- The loop of `wrap`: `cur` is the line that is being filled. -/
def wrapLines (pad tail : Text) : Text → List Text → List Text
  | cur, [] => [rstrip cur]
  | cur, a :: args =>
      let piece := wrapPiece tail a args.isEmpty
      if cur.any (!isSpace ·) && decide (79 < cur.length + piece.length) then
        rstrip cur :: wrapLines pad tail (pad ++ piece ++ wrapGap args.isEmpty) args
      else wrapLines pad tail (cur ++ piece ++ wrapGap args.isEmpty) args

/-- `prefix(a, b, c)tail`, in lines of 79 columns. Where the widest argument would
not fit under the open parenthesis, all are indented by four instead. -/
def wrap (before : Text) (args : List Text) (tail indent : Text) (cont : Nat) : List Text :=
  let one := indent ++ before ++ ['('] ++ [',', ' '].intercalate args ++ [')'] ++ tail
  if one.length ≤ 79 then [one]
  else
    let cont := if 79 < cont + (widest args + 2) then indent.length + 4 else cont
    wrapLines (List.replicate cont ' ') tail (indent ++ before ++ ['(']) args

/-! ## The struct -/

variable (alnum : Char → Bool)

def slotType (p : AbiParam) : Text := abiType alnum p.base ++ p.suffix

/-- The types of the arguments, or `void`. -/
def slotArgs (ep : AbiEntryPoint) : List Text :=
  if ep.params.isEmpty then [['v', 'o', 'i', 'd']] else ep.params.map (slotType alnum)

def slotDeclaration (ep : AbiEntryPoint) : List Text :=
  let ret := abiType alnum ep.ret
  wrap (ret ++ [' ', '(', '*'] ++ ep.name ++ [')']) (slotArgs alnum ep) [';'] [' ', ' ']
    (2 + ret.length + 3 + ep.name.length + 2)

/-- From behind `struct mpiwrapper_vtable {` to the end of the struct
(`emit_vtable_h`). -/
def vtableText (H : AbiHeader) : Text :=
  ['\n'] ++ ['\n'].intercalate (H.slots.flatMap (slotDeclaration alnum)) ++ ['\n', '}', ';']

/-! ## layout_hash.py -/

/-- What stands before the first `sub` of a text, and what behind it. -/
def cut (sub : Text) : Text → Option (Text × Text)
  | [] => if sub.isEmpty then some ([], []) else none
  | c :: text =>
      if sub.isPrefixOf (c :: text) then some ([], (c :: text).drop sub.length)
      else (cut sub text).map fun p => (c :: p.1, p.2)

/-- `re.sub(r"/\*.*?\*/", "", body, flags=re.DOTALL)`: a comment that does not end
is none. -/
def dropBlockComments : Nat → Text → Text
  | 0, text => text
  | _ + 1, [] => []
  | n + 1, c :: text =>
      match if ['/', '*'].isPrefixOf (c :: text) then cut ['*', '/'] ((c :: text).drop 2)
        else none with
      | some p => dropBlockComments n p.2
      | none => c :: dropBlockComments n text

/-- `re.sub(r"//[^\n]*", "", body)`; `inside` says whether the text goes on in a
comment. -/
def dropLineComments : Bool → Text → Text
  | _, [] => []
  | true, c :: text =>
      if c = '\n' then c :: dropLineComments false text else dropLineComments true text
  | false, c :: text =>
      if ['/', '/'].isPrefixOf (c :: text) then dropLineComments true text
      else c :: dropLineComments false text

/-- `re.sub(r"\s+", "", body)`. -/
def squash (text : Text) : Text := text.filter fun c => !isSpace c

/-- `slot_list_text`, of what stands behind the beginning of the struct. -/
def slotListText (text : Text) : Option Text :=
  (cut ['\n', '}', ';'] text).map fun p =>
    squash (dropLineComments false (dropBlockComments p.1.length p.1))

def fnvPrime : UInt32 := 0x01000193
def fnvBasis : UInt32 := 0x811C9DC5

def fnv1a32 (data : List UInt8) : UInt32 := mulHash fnvPrime fnvBasis data

def encode (text : Text) : List UInt8 := text.flatMap String.utf8EncodeChar

def layoutHash (H : AbiHeader) : Option UInt32 :=
  (slotListText (vtableText alnum H)).map fun text => fnv1a32 (encode text)

/-! ## What the generator has checked -/

def isEntryName (name : Text) : Bool :=
  (nameHead (unshifted name)).isSome && name.all isNameChar

/-- A header that `main` has got through: what the prototypes' regular expressions
let pass, and what `check_symmetry` and `check_aliases` have seen. Parameters have
neither braces nor comments. -/
structure AbiHeader.Checked (H : AbiHeader) : Prop where
  nodup : H.names.Nodup
  name : ∀ n ∈ H.names, isEntryName n = true
  ret : ∀ ep ∈ H.entries, ∀ c ∈ ep.ret, (isWordChar alnum c || isSpace c || c == '*') = true
  params : ∀ ep ∈ H.entries, ∀ p ∈ ep.params, ∀ c ∈ p.base ++ p.suffix, c ∉ [';', ',', '}', '/']
  symmetric : ∀ n, isPmpi n = false → (n ∈ H.names ↔ shifted n ∈ H.names)
  aliases : ∀ n target, (n, target) ∈ H.aliases →
    mpiPrefix.isPrefixOf n = true ∧ isPmpi target = false ∧ target ∈ H.names ∧
      H.aliases.lookup target = none

end AbiWrapper.Ref
