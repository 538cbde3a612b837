import FastcgiContainer.Request

/-! `Parser::parseMultipart`: the body of a form with files, cut into parts, the
headers of a part into lines and a line into parameters. -/

namespace FastcgiContainer.Parser

open Word (Bytes)

structure PartHeaders where
  name : DataBuffer
  filename : DataBuffer
  type : DataBuffer
  deriving DecidableEq, Repr

def returnRN : Bytes := [13, 10]
def returnN : Bytes := [10]
def emptyLineRNRN : Bytes := [13, 10, 13, 10]
def emptyLineNN : Bytes := [10, 10]
def minusPair : Bytes := ascii "--"

def keyIs (key : DataBuffer) (heap : Heap) (data : Bytes) : Except Exn Bool :=
  if data.length = key.size then key.startsWith heap data else .ok false

def keyIsCI (key : DataBuffer) (heap : Heap) (data : Bytes) : Except Exn Bool :=
  if data.length = key.size then key.startsWithCI heap data else .ok false

/-- One turn of `parseLine`: the parameter before the first semicolon. -/
def parseParameter (heap : Heap) (head : DataBuffer) (found : PartHeaders) :
    Except Exn PartHeaders := do
  let (_, key, value) ← head.split heap [61]
  if ← keyIs key heap (ascii "name") then .ok { found with name := value.trimn 1 1 }
  else if ← keyIs key heap (ascii "filename") then .ok { found with filename := value.trimn 1 1 }
  else if ← keyIsCI key heap (ascii "CONTENT_TYPE") then do
    .ok { found with type := ← value.trim heap }
  else .ok found

def parseLine (heap : Heap) : Nat → DataBuffer → PartHeaders → Except Exn PartHeaders
  | 0, line, found =>
      if line.empty then .ok found else .error (.undefined "parseLine does not return")
  | fuel + 1, line, found =>
      if line.empty then .ok found
      else do
        let (_, head, tail) ← line.split heap [59]
        let next ← parseParameter heap head found
        let rest ← tail.trim heap
        parseLine heap fuel rest next

/-- Splits at a delimiter or, where it does not occur, at another one. -/
def splitEither (buffer : DataBuffer) (heap : Heap) (delim other : Bytes) :
    Except Exn (DataBuffer × DataBuffer) := do
  let (found, first, second) ← buffer.split heap delim
  if found then .ok (first, second)
  else do
    let (_, first, second) ← buffer.split heap other
    .ok (first, second)

def isFolded (subline : DataBuffer) (heap : Heap) : Except Exn Bool := do
  let space ← subline.startsWith heap (ascii " ")
  if space then .ok true else subline.startsWith heap [9]

/-- The inner loop of `parsePart`: a line and the folded lines after it. A folded
line that comes first is taken from the index of an unset buffer on. -/
def foldLine (part : DataBuffer) (heap : Heap) :
    Nat → DataBuffer → DataBuffer → Bool → Except Exn (DataBuffer × DataBuffer)
  | 0, line, tail, _ =>
      if tail.empty then .ok (line, tail) else .error (.undefined "parsePart does not return")
  | fuel + 1, line, tail, lineFound =>
      if tail.empty then .ok (line, tail)
      else do
        let (subline, subtail) ← splitEither tail heap returnRN returnN
        let folded ← isFolded subline heap
        if folded then do
          let joined ← part.view heap line.beginIndex subline.endIndex
          foldLine part heap fuel joined subtail true
        else if lineFound then .ok (line, tail)
        else foldLine part heap fuel subline subtail true

def parseHeaders (part : DataBuffer) (heap : Heap) :
    Nat → DataBuffer → PartHeaders → Except Exn PartHeaders
  | 0, headers, found =>
      if headers.empty then .ok found else .error (.undefined "parsePart does not return")
  | fuel + 1, headers, found =>
      if headers.empty then .ok found
      else do
        let (line, tail) ← foldLine part heap headers.size .nil headers false
        let next ← parseLine heap line.size line found
        parseHeaders part heap fuel tail next

def parsePart (request : Request) (heap : Heap) (part : DataBuffer) : Except Exn Request := do
  let (headers, content) ← splitEither part heap emptyLineRNRN emptyLineNN
  let found ← parseHeaders part heap headers.size headers ⟨.nil, .nil, .nil⟩
  if found.name.empty then .ok request
  else do
    let name ← found.name.toBytes heap
    if found.filename.empty then do
      let arg ← content.toBytes heap
      .ok { request with args := request.args ++ [(name, arg)] }
    else do
      let file ← File.ofBuffers heap found.filename found.type content
      .ok { request with files := request.files.insert name file }

def malformed : Exn := .runtimeError "malformed multipart message"

/-- The newline before a boundary belongs to the boundary. -/
def stripBack (heap : Heap) (head : DataBuffer) : Except Exn DataBuffer := do
  let windows ← head.endsWith heap returnRN
  if windows then .ok (head.trimn 0 2)
  else do
    let unix ← head.endsWith heap returnN
    if unix then .ok (head.trimn 0 1) else .error malformed

def stripFront (heap : Heap) (head : DataBuffer) : Except Exn DataBuffer := do
  let windows ← head.startsWith heap returnRN
  if windows then .ok (head.trimn 2 0)
  else do
    let unix ← head.startsWith heap returnN
    if unix then .ok (head.trimn 1 0) else .error malformed

/-- The part between two boundaries, or what stands before the first one. -/
def cutPart (heap : Heap) (found : Bool) (head : DataBuffer) : Except Exn DataBuffer :=
  if found && !head.empty then do
    let front ← stripBack heap head
    stripFront heap front
  else .ok head

def addPart (request : Request) (heap : Heap) (part : DataBuffer) : Except Exn Request :=
  if part.empty then .ok request else parsePart request heap part

def parseMultipartLoop (heap : Heap) (boundary : Bytes) :
    Nat → Request → DataBuffer → Except Exn Request
  | 0, request, data =>
      if data.empty then .ok request else .error (.undefined "parseMultipart does not return")
  | fuel + 1, request, data =>
      if data.empty then .ok request
      else do
        let (found, head, tail) ← data.split heap boundary
        let part ← cutPart heap found head
        let next ← addPart request heap part
        let last ← tail.startsWith heap minusPair
        if last then .ok next else parseMultipartLoop heap boundary fuel next tail

def parseMultipart (request : Request) (heap : Heap) (data : DataBuffer) (boundary : Bytes) :
    Except Exn Request :=
  parseMultipartLoop heap boundary data.size request data

end FastcgiContainer.Parser
