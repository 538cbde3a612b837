import FastcgiContainer.Request

/-! `Request::serialize` and `Request::parse`: a request written into a buffer as
six sections with their lengths before them, and read back. Sums of lengths are
natural numbers; indices that the source lets wrap are words. -/

namespace FastcgiContainer.Request

open Word (Bytes)
open StringUtils (NamedValue)

def writeAt (buffer : DataBuffer) (data : Bytes) (pos : Nat) (heap : Heap) :
    Except Exn (Nat × Heap) := do
  let (written, heap) ← buffer.write heap pos data
  .ok (pos + written, heap)

def serializeInt (buffer : DataBuffer) (val : Nat) (pos : Nat) (heap : Heap) :
    Except Exn (Nat × Heap) :=
  writeAt buffer (Word.toBytes 8 val) pos heap

def serializeString (buffer : DataBuffer) (val : Bytes) (pos : Nat) (heap : Heap) :
    Except Exn (Nat × Heap) := do
  let (pos, heap) ← serializeInt buffer val.length pos heap
  writeAt buffer val pos heap

/-- The copying loop of `serializeBuffer`, over the chunks of the source. -/
def serializeChunks (buffer src : DataBuffer) :
    List (Nat × Nat) → Nat → Heap → Except Exn (Nat × Heap)
  | [], pos, heap => .ok (pos, heap)
  | (pointer, length) :: rest, pos, heap => do
      let impl ← src.impl heap
      let data ← impl.load pointer length
      let (pos, heap) ← writeAt buffer data pos heap
      serializeChunks buffer src rest pos heap

def serializeBuffer (buffer src : DataBuffer) (pos : Nat) (heap : Heap) :
    Except Exn (Nat × Heap) := do
  let (pos, heap) ← serializeInt buffer src.size pos heap
  let chunks ← src.segments heap
  serializeChunks buffer src chunks pos heap

def serializePairs (buffer : DataBuffer) :
    List NamedValue → Nat → Heap → Except Exn (Nat × Heap)
  | [], pos, heap => .ok (pos, heap)
  | (name, value) :: rest, pos, heap => do
      let (pos, heap) ← serializeString buffer name pos heap
      let (pos, heap) ← serializeString buffer value pos heap
      serializePairs buffer rest pos heap

def pairsSize (entries : List NamedValue) : Nat :=
  (entries.map (fun entry => entry.1.length + entry.2.length + 2 * 8)).sum

def serializeSection (buffer : DataBuffer) (entries : List NamedValue) (pos : Nat) (heap : Heap) :
    Except Exn (Nat × Heap) := do
  let (pos, heap) ← serializeInt buffer (pairsSize entries) pos heap
  serializePairs buffer entries pos heap

def envSize (request : Request) : Nat :=
  pairsSize request.headers.entries + pairsSize request.cookies.entries +
    pairsSize request.vars.entries + 3 * 8

def writeEnv (request : Request) (buffer : DataBuffer) (pos : Nat) (heap : Heap) :
    Except Exn (Nat × Heap) := do
  let (pos, heap) ← serializeSection buffer request.headers.entries pos heap
  let (pos, heap) ← serializeSection buffer request.cookies.entries pos heap
  serializeSection buffer request.vars.entries pos heap

def serializeEnv (request : Request) (heap : Heap) (buffer : DataBuffer) (addSize : Nat) :
    Except Exn (Nat × DataBuffer × Heap) := do
  let (buffer, heap) ← buffer.resize heap (Word.add addSize request.envSize)
  let (pos, heap) ← request.writeEnv buffer 0 heap
  .ok (pos, buffer, heap)

def fileSize (entry : Bytes × File) : Nat :=
  8 + entry.1.length + 8 + entry.2.name.length + 8 + entry.2.type.length + 2 * 8

def filesSerializedSize (request : Request) : Nat := (request.files.entries.map fileSize).sum

def argsSerializedSize (request : Request) : Nat := pairsSize request.args

/-- A file's content is not written again: its place is given relative to the body. -/
def serializeFile (buffer body : DataBuffer) (entry : Bytes × File) (pos : Nat) (heap : Heap) :
    Except Exn (Nat × Heap) := do
  let (pos, heap) ← serializeString buffer entry.1 pos heap
  let (pos, heap) ← serializeString buffer entry.2.name pos heap
  let (pos, heap) ← serializeString buffer entry.2.type pos heap
  let data := entry.2.data
  let (pos, heap) ← serializeInt buffer (Word.sub data.beginIndex body.beginIndex) pos heap
  serializeInt buffer (Word.sub data.endIndex data.beginIndex) pos heap

def serializeEachFile (buffer body : DataBuffer) :
    List (Bytes × File) → Nat → Heap → Except Exn (Nat × Heap)
  | [], pos, heap => .ok (pos, heap)
  | entry :: rest, pos, heap => do
      let (pos, heap) ← serializeFile buffer body entry pos heap
      serializeEachFile buffer body rest pos heap

def serializeFiles (request : Request) (buffer : DataBuffer) (pos : Nat) (heap : Heap) :
    Except Exn (Nat × Heap) := do
  let (pos, heap) ← serializeInt buffer request.filesSerializedSize pos heap
  serializeEachFile buffer request.body request.files.entries pos heap

def serializeArgs (request : Request) (buffer : DataBuffer) (pos : Nat) (heap : Heap) :
    Except Exn (Nat × Heap) :=
  serializeSection buffer request.args pos heap

def writeRest (request : Request) (buffer : DataBuffer) (pos : Nat) (heap : Heap) :
    Except Exn (Nat × Heap) := do
  let (pos, heap) ← serializeBuffer buffer request.body pos heap
  let (pos, heap) ← request.serializeFiles buffer pos heap
  request.serializeArgs buffer pos heap

def serialize (request : Request) (heap : Heap) (buffer : DataBuffer) :
    Except Exn (DataBuffer × Heap) := do
  let addSize := 8 + request.body.size + 8 + request.filesSerializedSize + 8 +
    request.argsSerializedSize
  let (pos, buffer, heap) ← request.serializeEnv heap buffer addSize
  let (_, heap) ← request.writeRest buffer pos heap
  .ok (buffer, heap)

/-- The bytes that are missing at the end of the buffer stay zero. -/
def parseInt (buffer : DataBuffer) (heap : Heap) (pos : Nat) : Except Exn (Nat × Nat) := do
  let data ← buffer.read heap pos 8
  .ok (pos + data.length, Word.ofBytes data)

/-- The length is taken as it is read. Where it is more than a string can have, `resize` throws
`length_error` or `bad_alloc`, and here the string is as long as that. -/
def parseString (buffer : DataBuffer) (heap : Heap) (pos : Nat) : Except Exn (Nat × Bytes) := do
  let (pos, len) ← parseInt buffer heap pos
  let data ← buffer.read heap pos len
  .ok (pos + data.length, resized data len)

def parseLength (buffer : DataBuffer) (heap : Heap) (pos : Nat) (what : String) :
    Except Exn (Nat × Nat) := do
  let (pos, fieldSize) ← parseInt buffer heap pos
  let posEnd := Word.add pos fieldSize
  if posEnd > buffer.size then .error (.runtimeError what) else .ok (pos, posEnd)

/-- The loops that read the entries of a section; a turn reads at least one byte. -/
def parsePairs {σ : Type} (buffer : DataBuffer) (heap : Heap) (add : σ → Bytes → Bytes → σ)
    (posEnd : Nat) : Nat → Nat → σ → Except Exn (Nat × σ)
  | 0, pos, found =>
      if pos < posEnd then .error (.undefined "parse does not return") else .ok (pos, found)
  | fuel + 1, pos, found =>
      if pos < posEnd then do
        let (pos, name) ← parseString buffer heap pos
        let (pos, value) ← parseString buffer heap pos
        parsePairs buffer heap add posEnd fuel pos (add found name value)
      else .ok (pos, found)

def parseSection {σ : Type} (buffer : DataBuffer) (heap : Heap) (add : σ → Bytes → Bytes → σ)
    (what : String) (pos : Nat) (found : σ) : Except Exn (Nat × σ) := do
  let (pos, posEnd) ← parseLength buffer heap pos what
  parsePairs buffer heap add posEnd posEnd pos found

def parseHeaders (request : Request) (buffer : DataBuffer) (heap : Heap) (pos : Nat) :
    Except Exn (Nat × Request) := do
  let (pos, headers) ← parseSection buffer heap OrderedMap.insert "Cannot parse request headers" pos
    request.headers
  .ok (pos, { request with headers })

def parseCookies (request : Request) (buffer : DataBuffer) (heap : Heap) (pos : Nat) :
    Except Exn (Nat × Request) := do
  let (pos, cookies) ← parseSection buffer heap OrderedMap.insert "Cannot parse request cookies" pos
    request.cookies
  .ok (pos, { request with cookies })

def parseVars (request : Request) (buffer : DataBuffer) (heap : Heap) (pos : Nat) :
    Except Exn (Nat × Request) := do
  let (pos, vars) ← parseSection buffer heap OrderedMap.insert "Cannot parse request vars" pos
    request.vars
  .ok (pos, { request with vars })

def parseBody (request : Request) (buffer : DataBuffer) (heap : Heap) (pos : Nat) :
    Except Exn (Nat × Request) := do
  let (pos, posEnd) ← parseLength buffer heap pos "Cannot parse request body"
  let body ← buffer.view heap (pos + buffer.beginIndex) (posEnd + buffer.beginIndex)
  .ok (posEnd, { request with body })

def parseFile (body buffer : DataBuffer) (heap : Heap) (pos : Nat) :
    Except Exn (Nat × Bytes × File) := do
  let (pos, name) ← parseString buffer heap pos
  let (pos, remoteName) ← parseString buffer heap pos
  let (pos, type) ← parseString buffer heap pos
  let (pos, offset) ← parseInt buffer heap pos
  let (pos, length) ← parseInt buffer heap pos
  let content ← body.view heap (Word.add offset body.beginIndex)
    (Word.add (Word.add offset length) body.beginIndex)
  let file ← File.create remoteName type content
  .ok (pos, name, file)

def parseEachFile (body buffer : DataBuffer) (heap : Heap) (posEnd : Nat) :
    Nat → Nat → OrderedMap Bytes File stringLess →
      Except Exn (Nat × OrderedMap Bytes File stringLess)
  | 0, pos, found =>
      if pos < posEnd then .error (.undefined "parseFiles does not return") else .ok (pos, found)
  | fuel + 1, pos, found =>
      if pos < posEnd then do
        let (pos, name, file) ← parseFile body buffer heap pos
        parseEachFile body buffer heap posEnd fuel pos (found.insert name file)
      else .ok (pos, found)

def parseFiles (request : Request) (buffer : DataBuffer) (heap : Heap) (pos : Nat) :
    Except Exn (Nat × Request) := do
  let (pos, posEnd) ← parseLength buffer heap pos "Cannot parse request files"
  let (pos, files) ← parseEachFile request.body buffer heap posEnd posEnd pos request.files
  .ok (pos, { request with files })

/-- A value with a CR, an LF or a NUL is encoded as it is read. -/
def parsedValue (value : Bytes) : Bytes :=
  if value.contains 13 || value.contains 10 || value.contains 0 then StringUtils.urlencode value
  else value

def parseArgs (request : Request) (buffer : DataBuffer) (heap : Heap) (pos : Nat) :
    Except Exn (Nat × Request) := do
  let (pos, args) ← parseSection buffer heap
    (fun found name value => found ++ [(name, parsedValue value)]) "Cannot parse request args" pos
    request.args
  .ok (pos, { request with args })

def parse (request : Request) (heap : Heap) (buffer : DataBuffer) : Except Exn Request := do
  let (pos, request) ← request.parseHeaders buffer heap 0
  let (pos, request) ← request.parseCookies buffer heap pos
  let (pos, request) ← request.parseVars buffer heap pos
  let (pos, request) ← request.parseBody buffer heap pos
  let (pos, request) ← request.parseFiles buffer heap pos
  let (_, request) ← request.parseArgs buffer heap pos
  .ok request

/-- The cookies to be sent stay, the headers to be sent are cleared. -/
def restore (request : Request) (heap : Heap) (buffer : DataBuffer) : Except Exn Request :=
  parse { request with
    args := [], vars := .empty, files := .empty, cookies := .empty, headers := .empty,
    outHeaders := .empty } heap buffer

end FastcgiContainer.Request
