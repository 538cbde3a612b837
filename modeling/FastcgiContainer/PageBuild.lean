import FastcgiContainer.CodeWriter
import FastcgiContainer.Writes

/-! The page compiler as a whole: pages are compiled one after the other, each into two source
files, and the lists of what was compiled are written at the end. -/

namespace FastcgiContainer.PageCompiler

open Word (Bytes)
open Writes (Indexes writeAll writeAll_append writeAll_mem writeAll_other)

structure Options where
  outputPath : Bytes
  moduleName : Bytes
  threadPoolName : Bytes
  loggerName : Bytes
  updateMakefile : Bool
  updateFactory : Bool
  updateConfigFiles : Bool

def Options.default : Options :=
  ⟨ascii "./", ascii "server_pages", ascii "work_pool", ascii "daemon-logger", false, false, false⟩

/-- The streams and maps that all pages share, and the contents of the files. -/
structure Build (F : Type) where
  factoryInc : Bytes
  factory : Bytes
  componentsConfig : Bytes
  handlersConfig : Bytes
  srcFiles : List Bytes
  classes : OrderedMap Bytes Bytes stringLess
  components : OrderedMap Bytes Bytes stringLess
  filters : OrderedMap Bytes Bytes stringLess
  disk : F → Option Bytes

abbrev Outcome (F : Type) := Build F × Option PageError

section Compile

variable {F : Type} [DecidableEq F] (place : Bytes → Option F) (depth : Nat) (options : Options)

/-- Opens a file to read it. `place` says which file a path denotes, if it denotes one. -/
def filesOn (disk : F → Option Bytes) (path : Bytes) : Option Bytes := (place path).bind disk

/-- The function `parse` of `main.cpp`: a page and its class. A page that cannot be opened is read
as an empty one. -/
def parseClass (disk : F → Option Bytes) (path : Bytes) : Except PageError (Page × Bytes) :=
  match parsePage (filesOn place disk) depth ⟨path, []⟩ ((filesOn place disk path).getD []) Page.empty with
  | .error exn => .error exn
  | .ok reader => .ok (reader.page, reader.page.getAttribute "page.class" [])

def duplicateClass (clazz path previous : Bytes) : PageError :=
  .message (ascii "duplicate class name " ++ clazz ++ ascii " defined in file " ++ path ++
    ascii "; previously defined in " ++ previous)

def duplicateComponent (key clazz previous : Bytes) : PageError :=
  .message (ascii "duplicate component name " ++ key ++ ascii " for class " ++ clazz ++
    ascii "; previously defined for class " ++ previous)

def duplicateFilter (filter componentName previous : Bytes) : PageError :=
  .message (ascii "duplicate filter " ++ filter ++ ascii " for component " ++ componentName ++
    ascii "; previously defined for component " ++ previous)

namespace Build

def start (disk : F → Option Bytes) : Build F := ⟨[], [], [], [], [], .empty, .empty, .empty, disk⟩

/-- A file that cannot be opened is not written. -/
def save (build : Build F) (path text : Bytes) : Build F :=
  match place path with
  | none => build
  | some file => { build with disk := Function.update build.disk file (some text) }

def writeComponentsConfig (writer : CodeWriter) (build : Build F) : Outcome F :=
  match writer.key options.moduleName with
  | none => (build, none)
  | some key =>
      match build.components.find? key with
      | none => ({ build with
          componentsConfig := build.componentsConfig ++ writer.componentEntry options.moduleName options.loggerName
          components := build.components.assign key writer.clazz }, none)
      | some previous => (build, some (duplicateComponent key writer.clazz previous))

def writeHandlersConfig (writer : CodeWriter) (build : Build F) : Outcome F :=
  match writer.filter with
  | none => (build, none)
  | some filter =>
      match build.filters.find? filter with
      | none => ({ build with
          handlersConfig := build.handlersConfig ++ writer.handlerEntry options.threadPoolName
          filters := build.filters.assign filter writer.componentName }, none)
      | some previous => (build, some (duplicateFilter filter writer.componentName previous))

def implFileName (clazz : Bytes) : Bytes := options.outputPath ++ (clazz ++ ascii ".cpp")

def headerFileName (clazz : Bytes) : Bytes := options.outputPath ++ (clazz ++ ascii ".h")

def writeSources (writer : CodeWriter) (build : Build F) : Build F :=
  let header := headerFileName options writer.clazz
  let saved := (build.save place (implFileName options writer.clazz) (writer.writeImpl (basename header))).save place
    header (writer.writeHeader header)
  { saved with
    factoryInc := saved.factoryInc ++ writer.factoryInclude (basename header)
    factory := saved.factory ++ writer.factoryEntry }

def write (writer : CodeWriter) (build : Build F) : Outcome F :=
  match (build.writeSources place options writer).writeComponentsConfig options writer with
  | (build, some exn) => (build, some exn)
  | (build, none) =>
      match build.writeHandlersConfig options writer with
      | (build, some exn) => (build, some exn)
      | (build, none) => ({ build with srcFiles := build.srcFiles ++ [implFileName options writer.clazz] }, none)

/-- A page without a class is left out. -/
def compile (path : Bytes) (build : Build F) : Outcome F :=
  match parseClass place depth build.disk path with
  | .error exn => (build, some exn)
  | .ok (page, clazz) =>
      if clazz.isEmpty then (build, none)
      else
        match build.classes.find? clazz with
        | some previous => (build, some (duplicateClass clazz path previous))
        | none => write place options ⟨page, clazz⟩ { build with classes := build.classes.assign clazz path }

def compileAll : List Bytes → Build F → Outcome F
  | [], build => (build, none)
  | path :: rest, build =>
      match build.compile place depth options path with
      | (build, some exn) => (build, some exn)
      | (build, none) => compileAll rest build

def generated : Bytes := ascii "// Automatically generated file: don't edit\n\n"

def pagesText (factoryInc : Bytes) : Bytes :=
  generated ++ ascii "#ifndef INCLUDE_AUTO_CPSP_PAGES_HPP_\n#define INCLUDE_AUTO_CPSP_PAGES_HPP_\n" ++ factoryInc ++
    ascii "#endif /* INCLUDE_AUTO_CPSP_PAGES_HPP_ */\n"

def writeFactory (build : Build F) : Build F :=
  (build.save place (options.outputPath ++ ascii "cpsp_pages.hpp") (pagesText build.factoryInc)).save place
    (options.outputPath ++ ascii "cpsp_factory.inc") (generated ++ build.factory)

def configText (root : String) (entries : Bytes) : Bytes :=
  ascii "<?xml version=\"1.0\" ?>\n\n<!-- Automatically generated file: don't edit -->\n\n<" ++ ascii root ++
    ascii ">\n" ++ entries ++ ascii "</" ++ ascii root ++ ascii ">\n"

def writeConfigFiles (build : Build F) : Build F :=
  (build.save place (options.outputPath ++ ascii "components.xml")
    (configText "components" build.componentsConfig)).save place
    (options.outputPath ++ ascii "handlers.xml") (configText "handlers" build.handlersConfig)

def makefileText (srcFiles : List Bytes) : Bytes :=
  ascii "pkglib_LTLIBRARIES = " ++ options.moduleName ++ ascii ".la\n\n" ++ options.moduleName ++
    ascii "_la_LDFLAGS = -module\n" ++ options.moduleName ++ ascii "_la_SOURCES = \\\n" ++
    srcFiles.flatMap (fun src => ascii "\t" ++ src ++ ascii " \\\n") ++ ascii "\tfactory.cpp\n\n"

def writeMakeFile (build : Build F) : Build F :=
  build.save place (options.outputPath ++ ascii "Makefile.am") (makefileText options build.srcFiles)

def finish (build : Build F) : Build F :=
  let build := if options.updateFactory then build.writeFactory place options else build
  let build := if options.updateConfigFiles then build.writeConfigFiles place options else build
  if options.updateMakefile then build.writeMakeFile place options else build

end Build

/-- What `main` does with the pages that its arguments name. If there are none, it prints its options
and ends. -/
def compilePages (pages : List Bytes) (disk : F → Option Bytes) : Outcome F :=
  if pages.isEmpty then (Build.start disk, none)
  else
    match (Build.start disk).compileAll place depth options pages with
    | (build, some exn) => (build, some exn)
    | (build, none) => (build.finish place options, none)

end Compile

end FastcgiContainer.PageCompiler
