import FastcgiContainer.AuthenticatorFilter
import FastcgiContainer.EmptyStatements

/-! `CodeWriter` of the page compiler: the source files of a page, and what it adds to the
factory and to the configuration files. -/

namespace FastcgiContainer.PageCompiler

open Word (Bytes)

def split (str : Bytes) (c : UInt8) : List Bytes :=
  let text := str.takeWhile (fun symbol => symbol != 0)
  StringUtils.splitLoop c text.length text

def basename (path : Bytes) : Bytes := path.drop (pathToFile path).length

namespace Page

variable (page : Page)

def hasAttribute (name : String) : Bool := (page.attributes.find? (ascii name)).isSome

def getAttribute (name : String) (default : Bytes) : Bytes := (page.attributes.find? (ascii name)).getD default

end Page

/-- `_class` is kept next to the page. -/
structure CodeWriter where
  page : Page
  clazz : Bytes

namespace CodeWriter

variable (writer : CodeWriter)

section Source

def beginNamespace : Bytes :=
  let ns := writer.page.getAttribute "page.namespace" []
  if ns.isEmpty then []
  else (split ns 58).flatMap (fun n => ascii "namespace " ++ n ++ ascii " \x7b\n") ++ ascii "\n\n"

def endNamespace : Bytes :=
  let ns := writer.page.getAttribute "page.namespace" []
  if ns.isEmpty then []
  else ascii "\n\n" ++ (split ns 58).flatMap (fun _ => ascii "\x7d ") ++ ascii "// namespace " ++ ns ++ ascii "\n"

/-- Dots become underscores. -/
def guard (headerFileName : Bytes) : Bytes :=
  (basename headerFileName).map (fun symbol => if symbol = 46 then 95 else symbol) ++ ascii "_INCLUDED"

def beginGuard (headerFileName : Bytes) : Bytes :=
  ascii "#ifndef " ++ guard headerFileName ++ ascii "\n#define " ++ guard headerFileName ++ ascii "\n\n\n"

def endGuard (headerFileName : Bytes) : Bytes := ascii "\n\n#endif // " ++ guard headerFileName ++ ascii "\n"

def writeHeaderIncludes : Bytes :=
  ["component", "http_request", "http_response", "http_servlet"].flatMap
    (fun name => ascii "#include \"fastcgi3/" ++ ascii name ++ ascii ".h\"\n")

def writeHandlerMembers : Bytes :=
  let decls := writer.page.methods
  if decls.isEmpty then [] else ascii "\nprivate:\n" ++ decls ++ ascii "\n\n"

def declaration (decls : Bytes) : Bytes := if decls.isEmpty then [] else decls ++ ascii "\n\n"

def handlerClass (base ctorArg : Bytes) : Bytes :=
  let exprt := writer.page.getAttribute "page.export" []
  ascii "class " ++ (if exprt.isEmpty then [] else exprt ++ ascii " ") ++ writer.clazz ++ ascii ": public " ++ base ++
    ascii " \x7b\npublic:\n" ++
    (if ctorArg.isEmpty then [] else ascii "\t" ++ writer.clazz ++ ascii "(" ++ ctorArg ++ ascii ");\n\n") ++
    ascii "\tvoid handleRequest(fastcgi::HttpRequest* request, fastcgi::HttpResponse* response) override;\n" ++
    writer.writeHandlerMembers ++
    (if (writer.page.getAttribute "page.path" []).isEmpty then [] else ascii "\n\tstatic const std::string PATH;\n") ++
    ascii "\x7d;\n"

def base : Bytes := writer.page.getAttribute "page.baseClass" (ascii "fastcgi::Servlet")

def ctorArg : Bytes :=
  writer.page.getAttribute "page.ctorArg" (ascii "std::shared_ptr<fastcgi::ComponentContext> context")

def writeHandlerClass : Bytes := writer.handlerClass writer.base writer.ctorArg

def writeHeader (headerFileName : Bytes) : Bytes :=
  beginGuard headerFileName ++ writeHeaderIncludes ++ ascii "\n\n#undef CPSP_CLASS_NAME\n#define CPSP_CLASS_NAME " ++
    writer.clazz ++ ascii "\n\n" ++ declaration writer.page.headerDecls ++ writer.beginNamespace ++
    writer.writeHandlerClass ++ writer.endNamespace ++ endGuard headerFileName

def writeImplIncludes : Bytes :=
  ascii "#include <iostream>\n#include <stdexcept>\n" ++
    ["logger", "config", "except", "stream", "handler", "request", "component", "component_factory", "http_request",
      "http_response", "http_servlet"].flatMap
        (fun name => ascii "#include \"fastcgi3/" ++ ascii name ++ ascii ".h\"\n")

def writeConstructor : Bytes :=
  writer.clazz ++ ascii "::" ++ writer.clazz ++ ascii "(" ++ writer.ctorArg ++ ascii "):\n\t " ++ writer.base ++
    ascii "(context) \x7b\n\x7d\n\n\n"

def writeResponse : Bytes :=
  let contentLang := writer.page.getAttribute "page.contentLanguage" []
  ascii "\tresponse->setContentType(\"" ++ writer.page.getAttribute "page.contentType" (ascii "text/html") ++
    ascii "\");\n" ++
    (if contentLang.isEmpty then []
      else ascii "\tif (request->hasHeader(\"Accept-Language\")) \x7b\n\t\tresponse->setHeader(" ++
        ascii "\"Content-Language\", \"" ++ contentLang ++ ascii "\");\n\t\x7d") ++
    ascii "\n"

def writeHandler : Bytes :=
  ascii "void\n" ++ writer.clazz ++
    ascii "::handleRequest(fastcgi::HttpRequest* request, fastcgi::HttpResponse* response) \x7b\n" ++
    writer.writeResponse ++
    (if writer.page.hasAttribute "page.precondition" then
      ascii "\tif (!(" ++ writer.page.getAttribute "page.precondition" [] ++ ascii ")) return;\n\n" else []) ++
    writer.page.preHandler ++ writeContent writer.page ++ ascii "\x7d\n"

def writeImpl (headerFileName : Bytes) : Bytes :=
  let path := writer.page.getAttribute "page.path" []
  ascii "#include \"" ++ headerFileName ++ ascii "\"\n" ++ writeImplIncludes ++ ascii "\n" ++
    declaration writer.page.implDecls ++ declaration writer.page.functions ++ writer.beginNamespace ++
    (if path.isEmpty then []
      else ascii "\tconst std::string " ++ writer.clazz ++ ascii "::PATH(\"" ++ path ++ ascii "\");\n\n\n") ++
    writer.writeConstructor ++ writer.writeHandler ++ writer.endNamespace

end Source

section Configuration

def componentName : Bytes := writer.page.getAttribute "component.name" writer.clazz

def factoryInclude (headerFileName : Bytes) : Bytes :=
  if writer.componentName.isEmpty then [] else ascii "#include \"" ++ headerFileName ++ ascii "\"\n"

def factoryEntry : Bytes :=
  if writer.componentName.isEmpty then []
  else writer.beginNamespace ++ ascii "FCGIDAEMON_ADD_DEFAULT_FACTORY(\"" ++ writer.componentName ++ ascii "\", " ++
    writer.clazz ++ ascii ")\n" ++ writer.endNamespace

/-- The key of `_components`. -/
def key (moduleName : Bytes) : Option Bytes :=
  if writer.componentName.isEmpty then none else some (moduleName ++ ascii ":" ++ writer.componentName)

def componentEntry (moduleName loggerName : Bytes) : Bytes :=
  if writer.componentName.isEmpty then []
  else ascii "\t<component name=\"" ++ writer.componentName ++ ascii "\" type=\"" ++ moduleName ++ ascii ":" ++
    writer.componentName ++ ascii "\">\n" ++
    (if loggerName.isEmpty then [] else ascii "\t\t<logger>" ++ loggerName ++ ascii "</logger>\n") ++
    ascii "\t</component>\n"

def filterPart (name : String) (value : Bytes) : Bytes :=
  if value.isEmpty then [] else ascii name ++ ascii "=\"" ++ value ++ ascii "\" "

def filterAttribute (name : String) : Bytes :=
  filterPart name (writer.page.getAttribute (String.append "component." name) [])

def filterText : Bytes :=
  filterPart "url" (writer.page.getAttribute "component.url" (ascii "/" ++ writer.componentName)) ++
    writer.filterAttribute "host" ++ writer.filterAttribute "port" ++ writer.filterAttribute "address" ++
    writer.filterAttribute "referer"

/-- The key of `_filters`. -/
def filter : Option Bytes :=
  if writer.componentName.isEmpty || writer.filterText.isEmpty then none else some writer.filterText

def handlerEntry (threadPoolName : Bytes) : Bytes :=
  match writer.filter with
  | none => []
  | some filter =>
      ascii "\t<handler " ++ filter ++ ascii " pool=\"" ++ threadPoolName ++ ascii "\">\n\t\t<component name=\"" ++
        writer.componentName ++ ascii "\"/>\n\t</handler>\n"

end Configuration

end CodeWriter

end FastcgiContainer.PageCompiler
