import WzyServer.Base.CString
import WzyServer.Base.Word

set_option autoImplicit false

namespace WzyServer.Http

open CString

def fileNameLen : Nat := 200
def readBufferSize : Nat := 2048
def writeBufferSize : Nat := 1024

inductive Method where
  | get | post | head | put | delete | trace | options | connect | patch
deriving DecidableEq, Repr

inductive CheckState where
  | requestLine | header | connect
deriving DecidableEq, Repr

inductive HttpCode where
  | noRequest | getRequest | badRequest | noResource | forbiddenRequest | fileRequest | internalError | closedConnection
deriving DecidableEq, Repr

inductive LineStatus where
  | lineOk | lineBad | lineOpen
deriving DecidableEq, Repr

inductive Fault where
  | nullPointer | outOfBounds
deriving DecidableEq, Repr

-- What a call of the parser ends in: the code it returns, or the first access
-- that C++ leaves undefined.
inductive Outcome where
  | code (value : HttpCode)
  | fault (kind : Fault)
deriving DecidableEq, Repr

-- The fields of http_conn that reading and parsing a request use. Pointers into
-- m_read_buf are offsets, and `none` is the null pointer.
structure Request where
  readBuf : Memory
  readIdx : Nat
  checkIdx : Nat
  startLine : Nat
  checkState : CheckState
  method : Method
  realFile : Memory
  url : Option Nat
  version : Option Nat
  host : Option Nat
  contentLength : Int
  linger : Bool
  cgi : Int
  string : Option Nat

def zeroed : Memory := fun _ => 0

def cstr (memory : Memory) (text : Nat) : List UInt8 := stringAt memory text (readBufferSize - text)

namespace Request

def fresh : Request where
  readBuf := zeroed
  readIdx := 0
  checkIdx := 0
  startLine := 0
  checkState := .requestLine
  method := .get
  realFile := zeroed
  url := none
  version := none
  host := none
  contentLength := 0
  linger := false
  cgi := 0
  string := none

-- cgi and m_string are the two parser fields that http_conn::init leaves alone.
def init (r : Request) : Request :=
  { r with
    checkState := .requestLine, linger := false, method := .get, url := none, version := none,
    contentLength := 0, host := none, startLine := 0, checkIdx := 0, readIdx := 0,
    readBuf := zeroed, realFile := zeroed }

-- What http_conn::read has done once recv has delivered `bytes`.
def feed (r : Request) (bytes : List UInt8) : Request :=
  { r with readBuf := write r.readBuf r.readIdx bytes, readIdx := r.readIdx + bytes.length }

@[simp] theorem feed_read_buf (r : Request) (bytes : List UInt8) : (r.feed bytes).readBuf = write r.readBuf r.readIdx bytes := rfl
@[simp] theorem feed_read_idx (r : Request) (bytes : List UInt8) : (r.feed bytes).readIdx = r.readIdx + bytes.length := rfl
@[simp] theorem feed_check_idx (r : Request) (bytes : List UInt8) : (r.feed bytes).checkIdx = r.checkIdx := rfl
@[simp] theorem feed_start_line (r : Request) (bytes : List UInt8) : (r.feed bytes).startLine = r.startLine := rfl
@[simp] theorem feed_check_state (r : Request) (bytes : List UInt8) : (r.feed bytes).checkState = r.checkState := rfl
@[simp] theorem feed_content_length (r : Request) (bytes : List UInt8) : (r.feed bytes).contentLength = r.contentLength := rfl

theorem feed_nil (r : Request) : r.feed [] = r := by
  simp [feed]

theorem feed_append (r : Request) (a b : List UInt8) : r.feed (a ++ b) = (r.feed a).feed b := by
  simp [feed, write_append, Nat.add_assoc]

theorem feed_below (r : Request) (bytes : List UInt8) (index : Nat) (below : index < r.readIdx) :
    (r.feed bytes).readBuf index = r.readBuf index :=
  write_before r.readBuf r.readIdx index bytes below

theorem init_fresh (r : Request) (cgi : r.cgi = 0) (string : r.string = none) : r.init = fresh := by
  simp [init, fresh, cgi, string]

end Request

end WzyServer.Http
