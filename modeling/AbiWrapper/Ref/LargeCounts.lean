import AbiWrapper.Ref.FallbackGen

/-!
# The large-count entry points with a fallback (wrappers.c)

The parameter lists of the 148 entry points that have one, each beside the list
of the function it falls back to, from the prototypes and apis.json. All but
three fall back to the function of their name without `_c`. The lists are in the
order of both prototypes, which is the same but for the three parameters that
large-count forms alone have.

`significant` is the standard's word on how many entries a call reads of an
array of integers. It is what the two lengths of an array are compared with:
what the fallback copies, and what the twin's body lets the implementation see.
-/

namespace AbiWrapper.Ref

/-- A parameter of a large-count form, and its twin's. -/
structure LargeParam where
  large : GenParam
  small : Option GenParam
deriving DecidableEq, Repr

structure LargeCount where
  name : String
  twin : String
  params : List LargeParam
deriving DecidableEq, Repr

/-! ## Parameters -/

namespace LargeParam

def same (p : GenParam) : LargeParam := ⟨p, some p⟩

/-- The two types differ. What the generator knows about the length of an array
it knows under the large-count form's name. -/
def narrowed (p : GenParam) (type : CType) : LargeParam :=
  ⟨p, some { p with type := type, named := none }⟩

def handleType : HandleClass → CType
  | .comm => .other "MPI_Comm"
  | .datatype => .other "MPI_Datatype"
  | .errhandler => .other "MPI_Errhandler"
  | .file => .other "MPI_File"
  | .group => .other "MPI_Group"
  | .info => .other "MPI_Info"
  | .message => .other "MPI_Message"
  | .op => .other "MPI_Op"
  | .request => .other "MPI_Request"
  | .session => .other "MPI_Session"
  | .win => .other "MPI_Win"

section Scalars

variable (name : String)

def plain (type : CType) : LargeParam := same { name, type }

def count : LargeParam := narrowed { name, type := .count } .int

def aintCount : LargeParam := narrowed { name, type := .count } .aint

def dispUnit : LargeParam := narrowed { name, type := .aint } .int

def handle (c : HandleClass) : LargeParam :=
  same { name, type := handleType c, kind := some (.handle c), cls := .handleIn }

def rank : LargeParam := same { name, type := .int, kind := some .rank, cls := .rankIn }

def tag : LargeParam := same { name, type := .int, kind := some .tag, cls := .tagIn }

def order : LargeParam :=
  same { name, type := .int, kind := some (.switch .order), cls := .switchIn }

def string : LargeParam :=
  same { name, type := .other "char", const := true, shape := .array, length := some .star,
         cls := .stringIn }

/-- `max_datatypes`, which the implementation is told the staged length for. -/
def maxDatatypes : LargeParam :=
  narrowed { name, type := .count, substitute := some (.clamped .ndatatypes name) } .int

def largeCount : LargeParam := ⟨{ name, type := .count }, none⟩

end Scalars

section Pointers

variable (name : String)

def sendbuf : LargeParam :=
  same { name, type := .other "void", const := true, shape := .pointer, cls := .buffer }

def sendbufInPlace : LargeParam :=
  same { name, type := .other "void", const := true, shape := .pointer, cls := .bufferInplace }

def recvbuf : LargeParam :=
  same { name, type := .other "void", shape := .pointer, direction := .output, cls := .buffer }

def recvbufInPlace : LargeParam :=
  same { name, type := .other "void", shape := .pointer, direction := .output,
         cls := .bufferInplace }

def inoutbuf : LargeParam :=
  same { name, type := .other "void", shape := .pointer, direction := .inout, cls := .buffer }

/-- The memory of a window. -/
def base : LargeParam :=
  same { name, type := .other "void", shape := .pointer, cls := .buffer }

def out (type : CType) : LargeParam :=
  same { name, type, shape := .pointer, direction := .output }

def countOut (type : CType) : LargeParam :=
  narrowed { name, type := .count, shape := .pointer, direction := .output } type

def dispUnitOut : LargeParam :=
  narrowed { name, type := .aint, shape := .pointer, direction := .output } .int

def largeCountOut : LargeParam :=
  ⟨{ name, type := .count, shape := .pointer, direction := .output }, none⟩

def position (type : CType) : LargeParam :=
  narrowed { name, type := .count, shape := .pointer, direction := .inout } type

def newHandle (c : HandleClass) : LargeParam :=
  same { name, type := handleType c, shape := .pointer, direction := .output,
         kind := some (.handle c), cls := .handleOut }

def inoutHandle (c : HandleClass) : LargeParam :=
  same { name, type := handleType c, shape := .pointer, direction := .inout,
         kind := some (.handle c), cls := .handleInout }

def combiner : LargeParam :=
  same { name, type := .int, shape := .pointer, direction := .output,
         kind := some (.switch .combiner), cls := .switchOut }

def status : LargeParam :=
  same { name, type := .other "MPI_Status", shape := .pointer, direction := .output,
         cls := .statusOut }

end Pointers

section Arrays

variable (name : String)

/-- An array of integers that is read. -/
def integers (type : CType) (length : ArrayLength) (significant : Significant) : GenParam where
  name
  type
  const := true
  shape := .array
  length := some length
  cls := .arrayPassthrough
  significant := some significant

def counts (extent : ExtentLocal) (significant : Significant) : LargeParam :=
  narrowed { integers name .count .star significant with named := some (.query extent) } .int

def displs (extent : ExtentLocal) (significant : Significant) : LargeParam :=
  narrowed { integers name .aint .star significant with named := some (.query extent) } .int

def rootCounts : LargeParam :=
  narrowed { integers name .count .star .atRoot with
    rootOnly := true, named := some (.query .rootNranks) } .int

def rootDispls : LargeParam :=
  narrowed { integers name .aint .star .atRoot with
    rootOnly := true, named := some (.query .rootNranks) } .int

def intArray (length : String) : LargeParam :=
  narrowed (integers name .count (.param length) (.length length)) .int

def aintArray (length : String) : LargeParam :=
  narrowed (integers name .count (.param length) (.length length)) .aint

def aints (significant : Significant) : LargeParam :=
  same (integers name .aint .star significant)

def ints (length : String) : LargeParam :=
  same (integers name .int (.param length) (.length length))

def outArray (type : CType) (length : String) : LargeParam :=
  same { name, type, shape := .array, direction := .output, length := some (.param length),
         cls := .arrayPassthrough }

def largeCounts (length : String) : LargeParam :=
  ⟨{ name, type := .count, shape := .array, direction := .output,
     length := some (.param length) }, none⟩

/-- An array of datatypes that is read. -/
def datatypes (length : ArrayLength) : GenParam where
  name
  type := handleType .datatype
  const := true
  shape := .array
  kind := some (.handle .datatype)
  length := some length
  cls := .arrayConvertIn

def types (extent : ExtentLocal) : LargeParam :=
  same { datatypes name .star with named := some (.query extent) }

def typesIgnored (extent : ExtentLocal) : LargeParam :=
  same { datatypes name .star with named := some (.query extent), ignoredBy := some "sendbuf" }

def typeArray (length : String) : LargeParam := same (datatypes name (.param length))

def switchArray (f : SwitchFamily) (length : String) : LargeParam :=
  same { name, type := .int, const := true, shape := .array, kind := some (.switch f),
         length := some (.param length), cls := .arrayConvertIn }

def contentsTypes : LargeParam :=
  same { name, type := handleType .datatype, shape := .array, direction := .output,
         kind := some (.handle .datatype), length := some (.param "max_datatypes"),
         cls := .arrayStageOut, named := some (.clamped .ndatatypes "max_datatypes") }

end Arrays

end LargeParam

/-! ## Entry points -/

namespace LargeCount

variable (r : LargeCount)

def large : List GenParam := r.params.map (·.large)

def small : List GenParam := r.params.filterMap (·.small)

/-- The entry point's body over an implementation that has its twin alone. -/
def fallback : Option GenBody :=
  (assignFallback r.large r.small).map fun params => ⟨r.twin, params⟩

def twinBody : GenBody := ⟨r.twin, r.small⟩

end LargeCount

/-- `MPI_X_c` over `MPI_X`, for functions with the same parameters. -/
def entries (twins : List String) (params : List LargeParam) : List LargeCount :=
  twins.map fun twin => ⟨twin ++ "_c", twin, params⟩

/-- The blocking, the nonblocking and the persistent form of collectives. -/
def forms (twins : List (String × String)) (params : List LargeParam) : List LargeCount :=
  twins.flatMap fun twin =>
    entries [twin.1] params ++
    entries [twin.2] (params ++ [.newHandle "request" .request]) ++
    entries [twin.1 ++ "_init"]
      (params ++ [.handle "info" .info, .newHandle "request" .request])

def pointToPoint : List LargeCount :=
  entries ["MPI_Bsend", "MPI_Rsend", "MPI_Send", "MPI_Ssend"]
    [.sendbuf "buf", .count "count", .handle "datatype" .datatype, .rank "dest", .tag "tag",
     .handle "comm" .comm] ++
  entries ["MPI_Bsend_init", "MPI_Ibsend", "MPI_Irsend", "MPI_Isend", "MPI_Issend",
           "MPI_Rsend_init", "MPI_Send_init", "MPI_Ssend_init"]
    [.sendbuf "buf", .count "count", .handle "datatype" .datatype, .rank "dest", .tag "tag",
     .handle "comm" .comm, .newHandle "request" .request] ++
  entries ["MPI_Imrecv"]
    [.recvbuf "buf", .count "count", .handle "datatype" .datatype,
     .inoutHandle "message" .message, .newHandle "request" .request] ++
  entries ["MPI_Irecv", "MPI_Recv_init"]
    [.recvbuf "buf", .count "count", .handle "datatype" .datatype, .rank "source", .tag "tag",
     .handle "comm" .comm, .newHandle "request" .request] ++
  entries ["MPI_Isendrecv"]
    [.sendbuf "sendbuf", .count "sendcount", .handle "sendtype" .datatype, .rank "dest",
     .tag "sendtag", .recvbuf "recvbuf", .count "recvcount", .handle "recvtype" .datatype,
     .rank "source", .tag "recvtag", .handle "comm" .comm, .newHandle "request" .request] ++
  entries ["MPI_Isendrecv_replace"]
    [.inoutbuf "buf", .count "count", .handle "datatype" .datatype, .rank "dest",
     .tag "sendtag", .rank "source", .tag "recvtag", .handle "comm" .comm,
     .newHandle "request" .request] ++
  entries ["MPI_Mrecv"]
    [.recvbuf "buf", .count "count", .handle "datatype" .datatype,
     .inoutHandle "message" .message, .status "status"] ++
  entries ["MPI_Recv"]
    [.recvbuf "buf", .count "count", .handle "datatype" .datatype, .rank "source", .tag "tag",
     .handle "comm" .comm, .status "status"] ++
  entries ["MPI_Reduce_local"]
    [.sendbuf "inbuf", .inoutbuf "inoutbuf", .count "count", .handle "datatype" .datatype,
     .handle "op" .op] ++
  entries ["MPI_Sendrecv"]
    [.sendbuf "sendbuf", .count "sendcount", .handle "sendtype" .datatype, .rank "dest",
     .tag "sendtag", .recvbuf "recvbuf", .count "recvcount", .handle "recvtype" .datatype,
     .rank "source", .tag "recvtag", .handle "comm" .comm, .status "status"] ++
  entries ["MPI_Sendrecv_replace"]
    [.inoutbuf "buf", .count "count", .handle "datatype" .datatype, .rank "dest",
     .tag "sendtag", .rank "source", .tag "recvtag", .handle "comm" .comm, .status "status"]

def gathervParams : List LargeParam :=
  [.sendbufInPlace "sendbuf", .count "sendcount", .handle "sendtype" .datatype,
   .recvbuf "recvbuf", .rootCounts "recvcounts", .rootDispls "displs",
   .handle "recvtype" .datatype, .rank "root", .handle "comm" .comm]

def reduceScatterParams : List LargeParam :=
  [.sendbufInPlace "sendbuf", .recvbuf "recvbuf", .counts "recvcounts" .nranks .localSize,
   .handle "datatype" .datatype, .handle "op" .op, .handle "comm" .comm]

def collectives : List LargeCount :=
  forms [("MPI_Allgather", "MPI_Iallgather"), ("MPI_Alltoall", "MPI_Ialltoall")]
    [.sendbufInPlace "sendbuf", .count "sendcount", .handle "sendtype" .datatype,
     .recvbuf "recvbuf", .count "recvcount", .handle "recvtype" .datatype, .handle "comm" .comm] ++
  forms [("MPI_Allgatherv", "MPI_Iallgatherv")]
    [.sendbufInPlace "sendbuf", .count "sendcount", .handle "sendtype" .datatype,
     .recvbuf "recvbuf", .counts "recvcounts" .nranks .peers, .displs "displs" .nranks .peers,
     .handle "recvtype" .datatype, .handle "comm" .comm] ++
  forms [("MPI_Allreduce", "MPI_Iallreduce"), ("MPI_Exscan", "MPI_Iexscan"),
         ("MPI_Scan", "MPI_Iscan")]
    [.sendbufInPlace "sendbuf", .recvbuf "recvbuf", .count "count",
     .handle "datatype" .datatype, .handle "op" .op, .handle "comm" .comm] ++
  forms [("MPI_Alltoallv", "MPI_Ialltoallv")]
    [.sendbufInPlace "sendbuf", .counts "sendcounts" .nranks .peers,
     .displs "sdispls" .nranks .peers, .handle "sendtype" .datatype, .recvbuf "recvbuf",
     .counts "recvcounts" .nranks .peers, .displs "rdispls" .nranks .peers,
     .handle "recvtype" .datatype, .handle "comm" .comm] ++
  forms [("MPI_Alltoallw", "MPI_Ialltoallw")]
    [.sendbufInPlace "sendbuf", .counts "sendcounts" .nranks .peers,
     .displs "sdispls" .nranks .peers, .typesIgnored "sendtypes" .nranks, .recvbuf "recvbuf",
     .counts "recvcounts" .nranks .peers, .displs "rdispls" .nranks .peers,
     .types "recvtypes" .nranks, .handle "comm" .comm] ++
  forms [("MPI_Bcast", "MPI_Ibcast")]
    [.inoutbuf "buffer", .count "count", .handle "datatype" .datatype, .rank "root",
     .handle "comm" .comm] ++
  forms [("MPI_Gather", "MPI_Igather")]
    [.sendbufInPlace "sendbuf", .count "sendcount", .handle "sendtype" .datatype,
     .recvbuf "recvbuf", .count "recvcount", .handle "recvtype" .datatype, .rank "root",
     .handle "comm" .comm] ++
  forms [("MPI_Gatherv", "MPI_Igatherv")] gathervParams ++
  forms [("MPI_Neighbor_allgather", "MPI_Ineighbor_allgather"),
         ("MPI_Neighbor_alltoall", "MPI_Ineighbor_alltoall")]
    [.sendbuf "sendbuf", .count "sendcount", .handle "sendtype" .datatype, .recvbuf "recvbuf",
     .count "recvcount", .handle "recvtype" .datatype, .handle "comm" .comm] ++
  forms [("MPI_Neighbor_allgatherv", "MPI_Ineighbor_allgatherv")]
    [.sendbuf "sendbuf", .count "sendcount", .handle "sendtype" .datatype, .recvbuf "recvbuf",
     .counts "recvcounts" .nrecvtypes .indegree, .displs "displs" .nrecvtypes .indegree,
     .handle "recvtype" .datatype, .handle "comm" .comm] ++
  forms [("MPI_Neighbor_alltoallv", "MPI_Ineighbor_alltoallv")]
    [.sendbuf "sendbuf", .counts "sendcounts" .nsendtypes .outdegree,
     .displs "sdispls" .nsendtypes .outdegree, .handle "sendtype" .datatype, .recvbuf "recvbuf",
     .counts "recvcounts" .nrecvtypes .indegree, .displs "rdispls" .nrecvtypes .indegree,
     .handle "recvtype" .datatype, .handle "comm" .comm] ++
  forms [("MPI_Neighbor_alltoallw", "MPI_Ineighbor_alltoallw")]
    [.sendbuf "sendbuf", .counts "sendcounts" .nsendtypes .outdegree,
     .aints "sdispls" .outdegree, .types "sendtypes" .nsendtypes, .recvbuf "recvbuf",
     .counts "recvcounts" .nrecvtypes .indegree, .aints "rdispls" .indegree,
     .types "recvtypes" .nrecvtypes, .handle "comm" .comm] ++
  forms [("MPI_Reduce", "MPI_Ireduce")]
    [.sendbufInPlace "sendbuf", .recvbuf "recvbuf", .count "count",
     .handle "datatype" .datatype, .handle "op" .op, .rank "root", .handle "comm" .comm] ++
  forms [("MPI_Reduce_scatter", "MPI_Ireduce_scatter")] reduceScatterParams ++
  forms [("MPI_Reduce_scatter_block", "MPI_Ireduce_scatter_block")]
    [.sendbufInPlace "sendbuf", .recvbuf "recvbuf", .count "recvcount",
     .handle "datatype" .datatype, .handle "op" .op, .handle "comm" .comm] ++
  forms [("MPI_Scatter", "MPI_Iscatter")]
    [.sendbuf "sendbuf", .count "sendcount", .handle "sendtype" .datatype,
     .recvbufInPlace "recvbuf", .count "recvcount", .handle "recvtype" .datatype, .rank "root",
     .handle "comm" .comm] ++
  forms [("MPI_Scatterv", "MPI_Iscatterv")]
    [.sendbuf "sendbuf", .rootCounts "sendcounts", .rootDispls "displs",
     .handle "sendtype" .datatype, .recvbufInPlace "recvbuf", .count "recvcount",
     .handle "recvtype" .datatype, .rank "root", .handle "comm" .comm]

def oneSided : List LargeCount :=
  entries ["MPI_Accumulate"]
    [.sendbuf "origin_addr", .count "origin_count", .handle "origin_datatype" .datatype,
     .rank "target_rank", .plain "target_disp" .aint, .count "target_count",
     .handle "target_datatype" .datatype, .handle "op" .op, .handle "win" .win] ++
  entries ["MPI_Get"]
    [.recvbuf "origin_addr", .count "origin_count", .handle "origin_datatype" .datatype,
     .rank "target_rank", .plain "target_disp" .aint, .count "target_count",
     .handle "target_datatype" .datatype, .handle "win" .win] ++
  entries ["MPI_Get_accumulate"]
    [.sendbuf "origin_addr", .count "origin_count", .handle "origin_datatype" .datatype,
     .recvbuf "result_addr", .count "result_count", .handle "result_datatype" .datatype,
     .rank "target_rank", .plain "target_disp" .aint, .count "target_count",
     .handle "target_datatype" .datatype, .handle "op" .op, .handle "win" .win] ++
  entries ["MPI_Put"]
    [.sendbuf "origin_addr", .count "origin_count", .handle "origin_datatype" .datatype,
     .rank "target_rank", .plain "target_disp" .aint, .count "target_count",
     .handle "target_datatype" .datatype, .handle "win" .win] ++
  entries ["MPI_Raccumulate"]
    [.sendbuf "origin_addr", .count "origin_count", .handle "origin_datatype" .datatype,
     .rank "target_rank", .plain "target_disp" .aint, .count "target_count",
     .handle "target_datatype" .datatype, .handle "op" .op, .handle "win" .win,
     .newHandle "request" .request] ++
  entries ["MPI_Rget"]
    [.recvbuf "origin_addr", .count "origin_count", .handle "origin_datatype" .datatype,
     .rank "target_rank", .plain "target_disp" .aint, .count "target_count",
     .handle "target_datatype" .datatype, .handle "win" .win, .newHandle "request" .request] ++
  entries ["MPI_Rget_accumulate"]
    [.sendbuf "origin_addr", .count "origin_count", .handle "origin_datatype" .datatype,
     .recvbuf "result_addr", .count "result_count", .handle "result_datatype" .datatype,
     .rank "target_rank", .plain "target_disp" .aint, .count "target_count",
     .handle "target_datatype" .datatype, .handle "op" .op, .handle "win" .win,
     .newHandle "request" .request] ++
  entries ["MPI_Rput"]
    [.sendbuf "origin_addr", .count "origin_count", .handle "origin_datatype" .datatype,
     .rank "target_rank", .plain "target_disp" .aint, .count "target_count",
     .handle "target_datatype" .datatype, .handle "win" .win, .newHandle "request" .request] ++
  entries ["MPI_Win_allocate", "MPI_Win_allocate_shared"]
    [.plain "size" .aint, .dispUnit "disp_unit", .handle "info" .info, .handle "comm" .comm,
     .recvbuf "baseptr", .newHandle "win" .win] ++
  entries ["MPI_Win_create"]
    [.base "base", .plain "size" .aint, .dispUnit "disp_unit", .handle "info" .info,
     .handle "comm" .comm, .newHandle "win" .win] ++
  entries ["MPI_Win_shared_query"]
    [.handle "win" .win, .rank "rank", .out "size" .aint, .dispUnitOut "disp_unit",
     .recvbuf "baseptr"]

def fileAccess : List LargeCount :=
  entries ["MPI_File_get_type_extent"]
    [.handle "fh" .file, .handle "datatype" .datatype, .countOut "extent" .aint] ++
  entries ["MPI_File_iread", "MPI_File_iread_all", "MPI_File_iread_shared"]
    [.handle "fh" .file, .recvbuf "buf", .count "count", .handle "datatype" .datatype,
     .newHandle "request" .request] ++
  entries ["MPI_File_iread_at", "MPI_File_iread_at_all"]
    [.handle "fh" .file, .plain "offset" .offset, .recvbuf "buf", .count "count",
     .handle "datatype" .datatype, .newHandle "request" .request] ++
  entries ["MPI_File_iwrite", "MPI_File_iwrite_all", "MPI_File_iwrite_shared"]
    [.handle "fh" .file, .sendbuf "buf", .count "count", .handle "datatype" .datatype,
     .newHandle "request" .request] ++
  entries ["MPI_File_iwrite_at", "MPI_File_iwrite_at_all"]
    [.handle "fh" .file, .plain "offset" .offset, .sendbuf "buf", .count "count",
     .handle "datatype" .datatype, .newHandle "request" .request] ++
  entries ["MPI_File_read", "MPI_File_read_all", "MPI_File_read_ordered", "MPI_File_read_shared"]
    [.handle "fh" .file, .recvbuf "buf", .count "count", .handle "datatype" .datatype,
     .status "status"] ++
  entries ["MPI_File_read_all_begin", "MPI_File_read_ordered_begin"]
    [.handle "fh" .file, .recvbuf "buf", .count "count", .handle "datatype" .datatype] ++
  entries ["MPI_File_read_at", "MPI_File_read_at_all"]
    [.handle "fh" .file, .plain "offset" .offset, .recvbuf "buf", .count "count",
     .handle "datatype" .datatype, .status "status"] ++
  entries ["MPI_File_read_at_all_begin"]
    [.handle "fh" .file, .plain "offset" .offset, .recvbuf "buf", .count "count",
     .handle "datatype" .datatype] ++
  entries ["MPI_File_write", "MPI_File_write_all", "MPI_File_write_ordered",
           "MPI_File_write_shared"]
    [.handle "fh" .file, .sendbuf "buf", .count "count", .handle "datatype" .datatype,
     .status "status"] ++
  entries ["MPI_File_write_all_begin", "MPI_File_write_ordered_begin"]
    [.handle "fh" .file, .sendbuf "buf", .count "count", .handle "datatype" .datatype] ++
  entries ["MPI_File_write_at", "MPI_File_write_at_all"]
    [.handle "fh" .file, .plain "offset" .offset, .sendbuf "buf", .count "count",
     .handle "datatype" .datatype, .status "status"] ++
  entries ["MPI_File_write_at_all_begin"]
    [.handle "fh" .file, .plain "offset" .offset, .sendbuf "buf", .count "count",
     .handle "datatype" .datatype]

def packing : List LargeCount :=
  entries ["MPI_Pack"]
    [.sendbuf "inbuf", .count "incount", .handle "datatype" .datatype, .recvbuf "outbuf",
     .count "outsize", .position "position" .int, .handle "comm" .comm] ++
  entries ["MPI_Pack_external"]
    [.string "datarep", .sendbuf "inbuf", .count "incount", .handle "datatype" .datatype,
     .recvbuf "outbuf", .aintCount "outsize", .position "position" .aint] ++
  entries ["MPI_Pack_external_size"]
    [.string "datarep", .count "incount", .handle "datatype" .datatype, .countOut "size" .aint] ++
  entries ["MPI_Pack_size"]
    [.count "incount", .handle "datatype" .datatype, .handle "comm" .comm,
     .countOut "size" .int] ++
  entries ["MPI_Unpack"]
    [.sendbuf "inbuf", .count "insize", .position "position" .int, .recvbuf "outbuf",
     .count "outcount", .handle "datatype" .datatype, .handle "comm" .comm] ++
  entries ["MPI_Unpack_external"]
    [.string "datarep", .sendbuf "inbuf", .aintCount "insize", .position "position" .aint,
     .recvbuf "outbuf", .count "outcount", .handle "datatype" .datatype]

def datatypeAccess : List LargeCount :=
  entries ["MPI_Type_contiguous"]
    [.count "count", .handle "oldtype" .datatype, .newHandle "newtype" .datatype] ++
  entries ["MPI_Type_create_darray"]
    [.plain "size" .int, .rank "rank", .plain "ndims" .int, .intArray "array_of_gsizes" "ndims",
     .switchArray "array_of_distribs" .distribute "ndims",
     .switchArray "array_of_dargs" .darg "ndims", .ints "array_of_psizes" "ndims",
     .order "order", .handle "oldtype" .datatype, .newHandle "newtype" .datatype] ++
  entries ["MPI_Type_create_hindexed"]
    [.count "count", .intArray "array_of_blocklengths" "count",
     .aintArray "array_of_displacements" "count", .handle "oldtype" .datatype,
     .newHandle "newtype" .datatype] ++
  entries ["MPI_Type_create_hindexed_block"]
    [.count "count", .count "blocklength", .aintArray "array_of_displacements" "count",
     .handle "oldtype" .datatype, .newHandle "newtype" .datatype] ++
  entries ["MPI_Type_create_hvector"]
    [.count "count", .count "blocklength", .aintCount "stride", .handle "oldtype" .datatype,
     .newHandle "newtype" .datatype] ++
  entries ["MPI_Type_create_indexed_block"]
    [.count "count", .count "blocklength", .intArray "array_of_displacements" "count",
     .handle "oldtype" .datatype, .newHandle "newtype" .datatype] ++
  entries ["MPI_Type_create_resized"]
    [.handle "oldtype" .datatype, .aintCount "lb", .aintCount "extent",
     .newHandle "newtype" .datatype] ++
  entries ["MPI_Type_create_struct"]
    [.count "count", .intArray "array_of_blocklengths" "count",
     .aintArray "array_of_displacements" "count", .typeArray "array_of_types" "count",
     .newHandle "newtype" .datatype] ++
  entries ["MPI_Type_create_subarray"]
    [.plain "ndims" .int, .intArray "array_of_sizes" "ndims",
     .intArray "array_of_subsizes" "ndims", .intArray "array_of_starts" "ndims", .order "order",
     .handle "oldtype" .datatype, .newHandle "newtype" .datatype] ++
  entries ["MPI_Type_get_contents"]
    [.handle "datatype" .datatype, .count "max_integers", .count "max_addresses",
     .largeCount "max_large_counts", .maxDatatypes "max_datatypes",
     .outArray "array_of_integers" .int "max_integers",
     .outArray "array_of_addresses" .aint "max_addresses",
     .largeCounts "array_of_large_counts" "max_large_counts",
     .contentsTypes "array_of_datatypes"] ++
  entries ["MPI_Type_get_envelope"]
    [.handle "datatype" .datatype, .countOut "num_integers" .int,
     .countOut "num_addresses" .int, .largeCountOut "num_large_counts",
     .countOut "num_datatypes" .int, .combiner "combiner"] ++
  [⟨"MPI_Type_get_extent_c", "MPI_Type_get_extent_x",
    [.handle "datatype" .datatype, .out "lb" .count, .out "extent" .count]⟩] ++
  [⟨"MPI_Type_get_true_extent_c", "MPI_Type_get_true_extent_x",
    [.handle "datatype" .datatype, .out "true_lb" .count, .out "true_extent" .count]⟩] ++
  entries ["MPI_Type_indexed"]
    [.count "count", .intArray "array_of_blocklengths" "count",
     .intArray "array_of_displacements" "count", .handle "oldtype" .datatype,
     .newHandle "newtype" .datatype] ++
  [⟨"MPI_Type_size_c", "MPI_Type_size_x",
    [.handle "datatype" .datatype, .out "size" .count]⟩] ++
  entries ["MPI_Type_vector"]
    [.count "count", .count "blocklength", .count "stride", .handle "oldtype" .datatype,
     .newHandle "newtype" .datatype]

def largeCounts : List LargeCount :=
  pointToPoint ++ collectives ++ oneSided ++ fileAccess ++ packing ++ datatypeAccess

example : largeCounts.length = 148 := by decide +kernel

end AbiWrapper.Ref
