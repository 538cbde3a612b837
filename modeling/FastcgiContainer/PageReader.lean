import FastcgiContainer.StringBuffer

/-! `PageReader` of the page compiler: a server page is read token by token and its sections
are copied to the streams of a `Page`, from which the source files are made. -/

namespace FastcgiContainer.PageCompiler

open Word (Bytes)

/-- What is thrown: a text, or nothing if pages include each other without end. -/
inductive PageError where
  | message (text : Bytes)
  | endless
  deriving DecidableEq, Repr

structure Page where
  headerDecls : Bytes
  implDecls : Bytes
  handler : Bytes
  preHandler : Bytes
  methods : Bytes
  functions : Bytes
  attributes : OrderedMap Bytes Bytes stringLess

def Page.empty : Page := ⟨[], [], [], [], [], [], .empty⟩

inductive ParsingState where
  | markup
  | implDecl
  | hdrDecl
  | methods
  | functions
  | preHandler
  | block
  | expr
  | comment
  | attr
  deriving DecidableEq, Repr

def markupBegin : Bytes := ascii "\tresponseStream << \""

def markupEnd : Bytes := ascii "\";\n"

def exprBegin : Bytes := ascii "\tresponseStream << ("

def exprEnd : Bytes := ascii ");\n"

def tagToken (istr : Bytes) : Bytes × Bytes :=
  match istr with
  | [] => (ascii "<%", [])
  | ch :: rest =>
      if ch = 37 ∨ ch = 64 ∨ ch = 61 then (ascii "<%" ++ [ch], rest)
      else if ch = 33 ∨ ch = 45 then
        if rest.head? = some ch then (ascii "<%" ++ [ch, ch], rest.tail) else (ascii "<%" ++ [ch], rest)
      else (ascii "<%", istr)

/-- The token is empty at the end of the stream. -/
def nextToken : Bytes → Bytes × Bytes
  | [] => ([], [])
  | ch :: rest =>
      if ch = 60 ∧ rest.head? = some 37 then tagToken rest.tail
      else if ch = 37 ∧ rest.head? = some 62 then (ascii "%>", rest.tail)
      else ([ch], rest)

def closingTag : Bytes := ascii "%>"

/-- The tags that open a section, and the state in which its text is read. -/
def openingTags : List (Bytes × ParsingState) :=
  [(ascii "<%", .block), (ascii "<%%", .preHandler), (ascii "<%!", .functions), (ascii "<%!!", .methods),
    (ascii "<%--", .comment), (ascii "<%@", .attr), (ascii "<%=", .expr)]

def opens (token : Bytes) : Option ParsingState :=
  (openingTags.find? (fun entry => entry.1 == token)).map Prod.snd

/-- A file, and the files it is included from. -/
structure Location where
  path : Bytes
  parents : List Bytes

/-- The lines are not counted. -/
def Location.where_ (location : Location) : Bytes :=
  ascii "in file '" ++ location.path ++ ascii "', line 0" ++
    location.parents.flatMap (fun path => ascii "\n\tincluded from file '" ++ path ++ ascii "', line 0")

/-- The directory of a file, with the separator at its end. -/
def pathToFile (path : Bytes) : Bytes := path.rdropWhile (fun symbol => !(symbol == 92 || symbol == 47))

/-- `directives` records the texts that were parsed as attributes. -/
structure Reader where
  state : ParsingState
  attrs : Bytes
  page : Page
  directives : List Bytes

def Page.writeHandler (page : Page) (text : Bytes) : Page := { page with handler := page.handler ++ text }

section Attributes

variable {σ : Type} (location : Location) (handle : Bytes → Bytes → σ → Except PageError σ)

def badSyntax (text : String) : PageError :=
  .message (ascii "bad attribute syntax: " ++ ascii text ++ location.where_)

/-- The loop over the attributes of a directive; a turn takes at least one symbol. -/
def attributeLoop (basename : Bytes) : Nat → Bytes → σ → Except PageError σ
  | 0, _, page => .ok page
  | fuel + 1, istr, page =>
      if istr.isEmpty then .ok page
      else
        let name := basename ++ ascii "." ++ istr.takeWhile isalnum
        match (istr.dropWhile isalnum).dropWhile isspace with
        | 61 :: rest =>
            match rest.dropWhile isspace with
            | quote :: rest =>
                if quote = 34 ∨ quote = 39 then
                  let value := rest.takeWhile (fun symbol => symbol != quote)
                  match rest.dropWhile (fun symbol => symbol != quote) with
                  | [] => .error (badSyntax location (if quote = 34 then "'\"' expected " else "''' expected "))
                  | _ :: rest =>
                      match handle name value page with
                      | .error exn => .error exn
                      | .ok page => attributeLoop basename fuel (rest.dropWhile isspace) page
                else .error (badSyntax location "'\"' or ''' expected")
            | [] => .error (badSyntax location "'\"' or ''' expected")
        | _ => .error (badSyntax location "'=' expected ")

def parseAttributes (attrs : Bytes) (page : σ) : Except PageError σ :=
  let istr := attrs.dropWhile isspace
  attributeLoop location handle (istr.takeWhile isalnum) attrs.length
    ((istr.dropWhile isalnum).dropWhile isspace) page

end Attributes

section Parse

variable (include_ : Bytes → Page → Except PageError Page)

def handleAttribute (name value : Bytes) (page : Page) : Except PageError Page :=
  if name = ascii "include.page" then include_ value page
  else if name = ascii "include.path" then
    .ok (page.writeHandler (ascii "\tresponse->includePath(\"" ++ value ++ ascii "\");"))
  else if name = ascii "include.component" then
    .ok (page.writeHandler (ascii "\tresponse->includeComponent(\"" ++ value ++ ascii "\");"))
  else if name = ascii "header.include" then
    .ok { page with headerDecls := page.headerDecls ++ (ascii "#include \"" ++ value ++ ascii "\"\n") }
  else if name = ascii "header.sinclude" then
    .ok { page with headerDecls := page.headerDecls ++ (ascii "#include <" ++ value ++ ascii ">\n") }
  else if name = ascii "impl.include" then
    .ok { page with implDecls := page.implDecls ++ (ascii "#include \"" ++ value ++ ascii "\"\n") }
  else if name = ascii "impl.sinclude" then
    .ok { page with implDecls := page.implDecls ++ (ascii "#include <" ++ value ++ ascii ">\n") }
  else .ok { page with attributes := page.attributes.insert name value }

namespace Reader

def write (reader : Reader) (text : Bytes) : Reader := { reader with page := reader.page.writeHandler text }

def enter (reader : Reader) (state : ParsingState) : Reader :=
  let ended := reader.write markupEnd
  match state with
  | .attr => { ended with state := .attr, attrs := [] }
  | .expr => { ended.write exprBegin with state := .expr }
  | state => { ended with state := state }

def close (location : Location) (reader : Reader) : Except PageError Reader :=
  match reader.state with
  | .markup => .ok (reader.write closingTag)
  | .expr => .ok { (reader.write exprEnd).write markupBegin with state := .markup }
  | .attr =>
      match parseAttributes location (handleAttribute include_) reader.attrs reader.page with
      | .error exn => .error exn
      | .ok page =>
          .ok { state := .markup, attrs := [], page := page.writeHandler markupBegin
                directives := reader.directives ++ [reader.attrs] }
  | _ => .ok { reader.write markupBegin with state := .markup }

def markupText (token : Bytes) : Bytes :=
  if token = [10] then ascii "\\n" ++ markupEnd ++ markupBegin
  else if token = [9] then ascii "\\t"
  else if token = [34] then ascii "\\\""
  else if token = [13] then []
  else token

def text (reader : Reader) (token : Bytes) : Reader :=
  match reader.state with
  | .markup => reader.write (markupText token)
  | .implDecl => { reader with page := { reader.page with implDecls := reader.page.implDecls ++ token } }
  | .functions => { reader with page := { reader.page with functions := reader.page.functions ++ token } }
  | .hdrDecl => { reader with page := { reader.page with headerDecls := reader.page.headerDecls ++ token } }
  | .methods => { reader with page := { reader.page with methods := reader.page.methods ++ token } }
  | .preHandler => { reader with page := { reader.page with preHandler := reader.page.preHandler ++ token } }
  | .block => reader.write token
  | .expr => reader.write token
  | .comment => reader
  | .attr => { reader with attrs := reader.attrs ++ token }

/-- One turn of the loop of `parse`. An opening tag inside a section goes to the handler. -/
def step (location : Location) (reader : Reader) (token : Bytes) : Except PageError Reader :=
  match opens token with
  | some state => .ok (if reader.state = .markup then reader.enter state else reader.write token)
  | none => if token = closingTag then reader.close include_ location else .ok (reader.text token)

def loop (location : Location) : Nat → Bytes → Reader → Except PageError Reader
  | 0, _, reader => .ok reader
  | fuel + 1, pageStream, reader =>
      let (token, rest) := nextToken pageStream
      if token.isEmpty then .ok reader
      else
        match reader.step include_ location token with
        | .error exn => .error exn
        | .ok reader => loop location fuel rest reader

end Reader

def parse (location : Location) (pageStream : Bytes) (page : Page) : Except PageError Reader :=
  match Reader.loop include_ location pageStream.length pageStream ⟨.markup, [], page.writeHandler markupBegin, []⟩ with
  | .error exn => .error exn
  | .ok reader =>
      if reader.state = .markup then .ok (reader.write markupEnd)
      else .error (.message (ascii "unclosed meta or code block: " ++ location.where_))

end Parse

/-- `include`, with the function that parses the file. -/
def includeFile (files : Bytes → Option Bytes) (parseFile : Location → Bytes → Page → Except PageError Reader)
    (location : Location) (path : Bytes) (page : Page) : Except PageError Page :=
  let includePath := pathToFile location.path ++ ascii "/" ++ path
  match files includePath with
  | none => .error (.message (ascii "could not open file  " ++ includePath ++ ascii " for inclusion " ++
      location.where_))
  | some source =>
      match parseFile ⟨includePath, location.path :: location.parents⟩ source
          (page.writeHandler (ascii "\t// begin include " ++ includePath ++ ascii "\n")) with
      | .error exn => .error exn
      | .ok reader =>
          .ok (reader.page.writeHandler (ascii "\t// end include " ++ includePath ++ ascii "\n"))

/-- A page with the files that it includes. The first argument bounds how deep they include
each other. -/
def parsePage (files : Bytes → Option Bytes) : Nat → Location → Bytes → Page → Except PageError Reader
  | 0, _, _, _ => .error .endless
  | depth + 1, location, pageStream, page =>
      parse (includeFile files (parsePage files depth) location) location pageStream page

end FastcgiContainer.PageCompiler
