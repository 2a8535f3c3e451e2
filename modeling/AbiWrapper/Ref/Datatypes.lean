import AbiWrapper.Ref.Spawn

/-!
# Datatype constructors and their contents (wrappers.c, constants.c)

A derived datatype remembers what it was made of, and `MPI_Type_get_contents`
gives that back: integers, addresses, large counts and datatypes, in the order
of the constructor's arguments. The bodies of the constructors come from their
parameter lists, each parameter with the kind that says how it is converted, as
those of the collectives do; and the kind says as well in which of the arrays
an argument comes back. `MPI_Type_get_contents` and its `_c` form have one body
each, which converts the datatypes and hands down the caller's other arrays.

A constructor has a small form and, if it has counts, a large one, which is
written over the implementation's large form where there is one and narrows its
counts for the small form where there is not.
-/

namespace AbiWrapper.Ref

/-! ## Constants -/

/-- The implementation's values of the constants that datatype constructors
take. -/
structure TypeImpl extends Impl where
  orderC : Int
  orderFortran : Int
  distributeNone : Int
  distributeBlock : Int
  distributeCyclic : Int
  distributeDfltDarg : Int
  /-- `sizeof(MPI_Aint)`. -/
  aintSize : Nat

/-- A switch of constants.c, from the ABI's and the implementation's values of
its cases. -/
def constFromabi (rows : List (Int × Int)) (abi : Int) : Int :=
  match rows.find? fun row => row.1 = abi with
  | some row => row.2
  | none => abi

def TypeImpl.orderRows (impl : TypeImpl) : List (Int × Int) :=
  [(12, impl.orderC), (15, impl.orderFortran)]

def TypeImpl.distributeRows (impl : TypeImpl) : List (Int × Int) :=
  [(16, impl.distributeNone), (17, impl.distributeBlock), (18, impl.distributeCyclic)]

def TypeImpl.dargRows (impl : TypeImpl) : List (Int × Int) := [(19, impl.distributeDfltDarg)]

def TypeImpl.rankRows (impl : TypeImpl) : List (Int × Int) :=
  [(abiAnySource, impl.ranks.anySource), (abiProcNull, impl.ranks.procNull),
   (abiRoot, impl.ranks.root), (abiUndefined, impl.ranks.undefined)]

def orderFromabi (impl : TypeImpl) (abiOrder : Int) : Int := constFromabi impl.orderRows abiOrder

def distributeFromabi (impl : TypeImpl) (abiDistribute : Int) : Int :=
  constFromabi impl.distributeRows abiDistribute

def dargFromabi (impl : TypeImpl) (abiDarg : Int) : Int := constFromabi impl.dargRows abiDarg

/-! ## Signatures -/

inductive TypeCtor
  | dup | contiguous | vector | hvector | indexed | hindexed | indexedBlock | hindexedBlock
  | struct | subarray | darray | f90Real | f90Complex | f90Integer | resized | valueIndex
deriving DecidableEq, Repr

/-- How a constructor's body is compiled: `MPI_X`; `MPI_X_c` over the same, or
over `MPI_X`; or over neither. -/
inductive TypeForm
  | small | large | fallback | absent
deriving DecidableEq, Repr

inductive TypeParam
  | count | blocklength | stride | blocklengths | displacements | types | size | rank | ndims
  | sizes | subsizes | starts | gsizes | distribs | dargs | psizes | order | p | r | lb | extent
  | oldtype | valueType | indexType
deriving DecidableEq, Repr

/-- How a parameter is converted, and where it comes back. An `int` is one in
both forms, a count is an `MPI_Count` in the large one, and so is an address. -/
inductive TypeParamKind
  | int
  | count
  | aint
  | rank
  | order
  | ints
  | counts
  | aints
  | distributes
  | dargs
  | datatype
  | datatypes
deriving DecidableEq, Repr

def TypeCtor.params : TypeCtor → List (TypeParam × TypeParamKind)
  | .dup => [(.oldtype, .datatype)]
  | .contiguous => [(.count, .count), (.oldtype, .datatype)]
  | .vector =>
      [(.count, .count), (.blocklength, .count), (.stride, .count), (.oldtype, .datatype)]
  | .hvector =>
      [(.count, .count), (.blocklength, .count), (.stride, .aint), (.oldtype, .datatype)]
  | .indexed =>
      [(.count, .count), (.blocklengths, .counts), (.displacements, .counts),
       (.oldtype, .datatype)]
  | .hindexed =>
      [(.count, .count), (.blocklengths, .counts), (.displacements, .aints),
       (.oldtype, .datatype)]
  | .indexedBlock =>
      [(.count, .count), (.blocklength, .count), (.displacements, .counts),
       (.oldtype, .datatype)]
  | .hindexedBlock =>
      [(.count, .count), (.blocklength, .count), (.displacements, .aints),
       (.oldtype, .datatype)]
  | .struct =>
      [(.count, .count), (.blocklengths, .counts), (.displacements, .aints),
       (.types, .datatypes)]
  | .subarray =>
      [(.ndims, .int), (.sizes, .counts), (.subsizes, .counts), (.starts, .counts),
       (.order, .order), (.oldtype, .datatype)]
  | .darray =>
      [(.size, .int), (.rank, .rank), (.ndims, .int), (.gsizes, .counts),
       (.distribs, .distributes), (.dargs, .dargs), (.psizes, .ints), (.order, .order),
       (.oldtype, .datatype)]
  | .f90Real | .f90Complex => [(.p, .int), (.r, .int)]
  | .f90Integer => [(.r, .int)]
  | .resized => [(.oldtype, .datatype), (.lb, .aint), (.extent, .aint)]
  | .valueIndex => [(.valueType, .datatype), (.indexType, .datatype)]

/-- The parameter that says how long the arrays are. -/
def TypeCtor.length : TypeCtor → TypeParam
  | .subarray | .darray => .ndims
  | _ => .count

/-- The arguments of a call, under the names of the parameters they are for.
The arrays are as long as they are said to be. -/
structure TypeArgs where
  number : TypeParam → Int
  array : TypeParam → Nat → Int
  handle : TypeParam → UInt64
  handles : TypeParam → Nat → UInt64

def TypeCtor.len (ctor : TypeCtor) (args : TypeArgs) : Nat := (args.number ctor.length).toNat

/-! ## Contents -/

inductive TypeVal
  | number (n : Int)
  | array (ns : List Int)
  | handle (h : UInt64)
  | handles (hs : List UInt64)
deriving DecidableEq, Repr

/-- The four arrays of `MPI_Type_get_contents_c`. -/
structure Contents where
  integers : List Int
  addresses : List Int
  largeCounts : List Int
  datatypes : List UInt64
deriving DecidableEq, Repr

def TypeVal.numbers : TypeVal → List Int
  | .number n => [n]
  | .array ns => ns
  | _ => []

def TypeVal.bits : TypeVal → List UInt64
  | .handle h => [h]
  | .handles hs => hs
  | _ => []

/-- An argument comes back among the integers. -/
def TypeParamKind.isInteger (large : Bool) : TypeParamKind → Bool
  | .int | .rank | .order | .ints | .distributes | .dargs => true
  | .count | .counts => !large
  | _ => false

def TypeParamKind.isAddress (large : Bool) : TypeParamKind → Bool
  | .aint | .aints => !large
  | _ => false

def TypeParamKind.isLargeCount (large : Bool) : TypeParamKind → Bool
  | .count | .counts | .aint | .aints => large
  | _ => false

/-- What MPI says a datatype made of these arguments contains. -/
def contentsOf (large : Bool) (vals : List (TypeParamKind × TypeVal)) : Contents where
  integers := vals.flatMap fun v => if v.1.isInteger large then v.2.numbers else []
  addresses := vals.flatMap fun v => if v.1.isAddress large then v.2.numbers else []
  largeCounts := vals.flatMap fun v => if v.1.isLargeCount large then v.2.numbers else []
  datatypes := vals.flatMap fun v => v.2.bits

structure TypeCall where
  ctor : TypeCtor
  large : Bool
  args : List (TypeParamKind × TypeVal)
deriving DecidableEq, Repr

def TypeCall.contents (c : TypeCall) : Contents := contentsOf c.large c.args

/-! ## The constructors -/

def givenParam (args : TypeArgs) (len : Nat) (param : TypeParam) : TypeParamKind → TypeVal
  | .int | .count | .aint | .rank | .order => .number (args.number param)
  | .ints | .counts | .aints | .distributes | .dargs =>
      .array ((List.range len).map (args.array param))
  | .datatype => .handle (args.handle param)
  | .datatypes => .handles ((List.range len).map (args.handles param))

/-- One parameter as the implementation gets it. -/
def convertTypeParam (impl : TypeImpl) (args : TypeArgs) (len : Nat) (param : TypeParam) :
    TypeParamKind → TypeVal
  | .rank => .number (rankFromabi impl.ranks (args.number param))
  | .order => .number (orderFromabi impl (args.number param))
  | .distributes =>
      .array ((List.range len).map fun i => distributeFromabi impl (args.array param i))
  | .dargs => .array ((List.range len).map fun i => dargFromabi impl (args.array param i))
  | .datatype => .handle (handleFromabi impl.handles .datatype (args.handle param))
  | .datatypes =>
      .handles ((List.range len).map fun i =>
        handleFromabi impl.handles .datatype (args.handles param i))
  | kind => givenParam args len param kind

/-- `mpiwrapper_fits`, with the sign bit as its magnitude. -/
def fitsBytes (bytes : Nat) (v : Int) : Prop :=
  let magnitude : Int := ((1 <<< (8 * bytes - 1) : Nat) : Int)
  v < magnitude ∧ -(v + 1) < magnitude

instance (bytes : Nat) (v : Int) : Decidable (fitsBytes bytes v) :=
  inferInstanceAs (Decidable (_ ∧ _))

def scalarFits (impl : TypeImpl) (args : TypeArgs) (p : TypeParam × TypeParamKind) : Bool :=
  match p.2 with
  | .count => fitsInt (args.number p.1)
  | .aint => fitsBytes impl.aintSize (args.number p.1)
  | _ => true

def arrayFits (impl : TypeImpl) (args : TypeArgs) (len : Nat) (p : TypeParam × TypeParamKind) :
    Bool :=
  match p.2 with
  | .counts => (List.range len).all fun i => fitsInt (args.array p.1 i)
  | .aints => (List.range len).all fun i => fitsBytes impl.aintSize (args.array p.1 i)
  | _ => true

/-- The size of an element, of a parameter of which a body makes a copy. -/
def stagedSize (impl : TypeImpl) (form : TypeForm) : TypeParamKind → Option Nat
  | .distributes | .dargs => some 4
  | .datatypes => some impl.datatypeSize
  | .counts => if form = .fallback then some 4 else none
  | .aints => if form = .fallback then some impl.aintSize else none
  | _ => none

namespace TypeCtor

variable (ctor : TypeCtor) (impl : TypeImpl) (form : TypeForm) (args : TypeArgs)

def staged : List Nat := ctor.params.filterMap fun p => stagedSize impl form p.2

/-- The length is one that a body with copies refuses. -/
def lengthRefused : Bool :=
  args.number ctor.length < 0 ||
    form = .large && (ctor.length, .count) ∈ ctor.params &&
      18446744073709551615 / impl.datatypeSize < ctor.len args

/-- The code of a body that returns before its call. -/
def refusal (malloc : Nat → Bool) : Option Int32 :=
  if form = .absent then some abiErrUnsupportedOperation
  else if form = .fallback && !ctor.params.all (scalarFits impl args) then
    some abiErrValueTooLarge
  else if ctor.staged impl form ≠ [] && ctor.lengthRefused impl form args then some abiErrCount
  else if !(ctor.staged impl form).all fun size => spawnStageOk malloc size (ctor.len args) then
    some abiErrIntern
  else if form = .fallback && !ctor.params.all (arrayFits impl args (ctor.len args)) then
    some abiErrValueTooLarge
  else none

def call : TypeCall where
  ctor := ctor
  large := form = .large
  args := ctor.params.map fun p => (p.2, convertTypeParam impl args (ctor.len args) p.1 p.2)

/-- What the datatype contains for the caller. -/
def abiContents : Contents :=
  contentsOf (form = .large)
    (ctor.params.map fun p => (p.2, givenParam args (ctor.len args) p.1 p.2))

end TypeCtor

structure TypeReply where
  ierror : Int32
  newtype : UInt64
deriving DecidableEq, Repr

/-- What a constructor's body leaves: its code, what it stored, and the state. -/
structure TypeCreated where
  code : Int32
  newtype : UInt64
  world : World

def finishCreate (impl : TypeImpl) (staged : Bool) (reply : TypeReply) (w : World) :
    TypeCreated :=
  let (newtype, raised) :=
    if reply.ierror = 0 then handleToabi impl.maps .datatype reply.newtype w.handleError
    else (abiNull .datatype, w.handleError)
  let w := { w with handleError := (takeHandleError raised).2 }
  if raised && !staged then ⟨abiErrIntern, newtype, w⟩
  else
    let (code, w) := w.toabi impl.toImpl reply.ierror
    ⟨if raised then abiErrIntern else code, newtype, w⟩

/-- The bodies `BODY_MPI_Type_*` that make a datatype. -/
def typeCreate (impl : TypeImpl) (malloc : Nat → Bool) (create : TypeCall → TypeReply)
    (ctor : TypeCtor) (form : TypeForm) (args : TypeArgs) (w : World) : TypeCreated :=
  match ctor.refusal impl form args malloc with
  | some code => ⟨code, abiNull .datatype, w⟩
  | none =>
      finishCreate impl (ctor.staged impl form ≠ []) (create (ctor.call impl form args)) w

/-! ## Getting them back -/

structure ContentsArgs where
  datatype : UInt64
  maxIntegers : Int
  maxAddresses : Int
  maxLargeCounts : Int
  maxDatatypes : Int
deriving DecidableEq, Repr

/-- A call of the implementation's `MPI_Type_get_contents`, or of its `_c`. -/
structure ContentsCall where
  large : Bool
  args : ContentsArgs
deriving DecidableEq, Repr

structure ContentsReply where
  ierror : Int32
  integers : List Int
  addresses : List Int
  largeCounts : List Int
  datatypes : Nat → UInt64

/-- What a body leaves: its code, what is in the caller's arrays if anything has
been put there, and the state. -/
structure ContentsResult where
  code : Int32
  integers : Option (List Int)
  addresses : Option (List Int)
  largeCounts : Option (List Int)
  datatypes : Option (List UInt64)
  world : World

/-- The loop that converts the datatypes, from entry `i` on. -/
def datatypesLoop (maps : Rmaps) (datatypes : Nat → UInt64) (i : Nat) :
    Nat → Bool → List UInt64 × Bool
  | 0, handleError => ([], handleError)
  | left + 1, handleError =>
      let (abi, handleError) := handleToabi maps .datatype (datatypes i) handleError
      let (rest, handleError) := datatypesLoop maps datatypes (i + 1) left handleError
      (abi :: rest, handleError)

def stoppedContents (code : Int32) (w : World) : ContentsResult := ⟨code, none, none, none, none, w⟩

def finishContents (impl : TypeImpl) (c : ContentsCall) (reply : ContentsReply) (w : World) :
    ContentsResult :=
  let (datatypes, raised) :=
    if reply.ierror = 0 then
      let (datatypes, raised) :=
        datatypesLoop impl.maps reply.datatypes 0 c.args.maxDatatypes.toNat w.handleError
      (some datatypes, raised)
    else (none, w.handleError)
  let (code, w) := w.toabi impl.toImpl reply.ierror
  ⟨if raised then abiErrIntern else code, some reply.integers, some reply.addresses,
    if c.large then some reply.largeCounts else none, datatypes,
    { w with handleError := (takeHandleError raised).2 }⟩

/-- `BODY_MPI_Type_get_contents` and `BODY_MPI_Type_get_contents_c`; `ndatatypes`
is `mpiwrapper_type_ndatatypes` or its `_c`, its code and the number. -/
def getContents (impl : TypeImpl) (malloc : Nat → Bool) (ndatatypes : UInt64 → Int32 × Int)
    (target : ContentsCall → ContentsReply) (form : TypeForm) (args : ContentsArgs) (w : World) :
    ContentsResult :=
  if form = .absent then stoppedContents abiErrUnsupportedOperation w
  else if form = .fallback ∧
      ¬ (fitsInt args.maxIntegers ∧ fitsInt args.maxAddresses ∧ fitsInt args.maxDatatypes) then
    stoppedContents abiErrValueTooLarge w
  else
    let datatype := handleFromabi impl.handles .datatype args.datatype
    let (ierror, n) := ndatatypes datatype
    if ierror ≠ 0 then
      let (code, w) := w.toabi impl.toImpl ierror
      stoppedContents code w
    else
      let n := max (min n args.maxDatatypes) 0
      if !spawnStageOk malloc impl.datatypeSize n.toNat then stoppedContents abiErrIntern w
      else
        let c : ContentsCall := ⟨form = .large, { args with datatype, maxDatatypes := n }⟩
        finishContents impl c (target c) w

/-! ## Numbers that differ -/

/-- No case of a switch turns the number into another. -/
def keptBy (rows : List (Int × Int)) (n : Int) : Prop := ∀ row, row ∈ rows → row.1 = n → row.2 = n

instance (rows : List (Int × Int)) (n : Int) : Decidable (keptBy rows n) :=
  inferInstanceAs (Decidable (∀ row, row ∈ rows → row.1 = n → row.2 = n))

/-- The constants among the arguments have one number on both sides. -/
def TypeCtor.sameNumbers (ctor : TypeCtor) (impl : TypeImpl) (args : TypeArgs) : Prop :=
  ∀ p, p ∈ ctor.params →
    match p.2 with
    | .rank => keptBy impl.rankRows (args.number p.1)
    | .order => keptBy impl.orderRows (args.number p.1)
    | .distributes => ∀ i, i < ctor.len args → keptBy impl.distributeRows (args.array p.1 i)
    | .dargs => ∀ i, i < ctor.len args → keptBy impl.dargRows (args.array p.1 i)
    | _ => True

end AbiWrapper.Ref
