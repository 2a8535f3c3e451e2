import AbiWrapper.Lib.Words

/-!
# The names of the two headers (generate_headers.py, generate.py)

A wrapper sees the implementation's `mpi.h`, so the ABI's types and constants
have names of their own there: `mpiabi.h` is the ABI's header with every name
that it introduces renamed. `substitute` does that to the header's text, with a
regular expression that has all the names as its alternatives, and `abi_type`
does it to the types of a prototype, with one that knows what a name looks like.
-/

namespace AbiWrapper.Ref

open AbiWrapper.Lib

abbrev Text := List Char

/-- `[A-Za-z0-9_]`. -/
def isNameChar (c : Char) : Bool := c.isAlphanum || c == '_'

/-- `\w`; `alnum` says which characters beyond ASCII are letters or digits. -/
def isWordChar (alnum : Char → Bool) (c : Char) : Bool :=
  isNameChar c || (decide (128 ≤ c.toNat) && alnum c)

def mpiPrefix : Text := ['M', 'P', 'I', '_']
def mpixPrefix : Text := ['M', 'P', 'I', 'X', '_']
def mpiabiPrefix : Text := ['M', 'P', 'I', 'A', 'B', 'I', '_']
def mpiabixPrefix : Text := ['M', 'P', 'I', 'A', 'B', 'I', 'X', '_']

/-- `rename`, which asserts that a name has one of the two prefixes. -/
def rename (name : Text) : Option Text :=
  if mpixPrefix.isPrefixOf name then some (mpiabixPrefix ++ name.drop mpixPrefix.length)
  else if mpiPrefix.isPrefixOf name then some (mpiabiPrefix ++ name.drop mpiPrefix.length)
  else none

def renameMap (names : List Text) : Option (List (Text × Text)) :=
  names.mapM fun name => (rename name).map fun new => (name, new)

/-- The longest names first. -/
def byLength (names : List Text) : List Text :=
  names.mergeSort fun a b => decide (b.length ≤ a.length)

variable (alnum : Char → Bool)

def substitute (text : Text) (map : List (Text × Text)) : Text :=
  if map.isEmpty then text
  else
    let names := byLength (map.map Prod.fst)
    substituteWords (isWordChar alnum) (fun rest => names.filter fun k => k.isPrefixOf rest)
      (fun k => (map.lookup k).getD k) text

/-- How much of a text `MPIX?_` matches. -/
def nameHead (text : Text) : Option Nat :=
  if mpixPrefix.isPrefixOf text then some mpixPrefix.length
  else if mpiPrefix.isPrefixOf text then some mpiPrefix.length
  else none

/-- What `MPIX?_[A-Za-z0-9_]+` matches at the beginning of a text, in the order in
which it is tried. -/
def nameCandidates (text : Text) : List Text :=
  match nameHead text with
  | none => []
  | some n =>
      (List.range ((text.drop n).takeWhile isNameChar).length).reverse.map fun i =>
        text.take (n + i + 1)

def abiType (text : Text) : Text :=
  substituteWords (isWordChar alnum) nameCandidates (fun k => (rename k).getD k) text

end AbiWrapper.Ref
