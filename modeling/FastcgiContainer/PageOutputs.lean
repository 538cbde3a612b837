import FastcgiContainer.PageBuild

/-! The files that the page compiler leaves behind: every page has its two source files with its
own text, whatever was compiled after it, and the configuration names each page once. A build that
stops says which earlier page is in the way. -/

namespace FastcgiContainer.PageCompiler

open Word (Bytes)
open Writes (Indexes writeAll writeAll_append writeAll_mem writeAll_other)

structure Entry where
  path : Bytes
  writer : CodeWriter

namespace Entry

def clazz (entry : Entry) : Bytes := entry.writer.clazz

def key (options : Options) (entry : Entry) : Option Bytes := entry.writer.key options.moduleName

def filter (entry : Entry) : Option Bytes := entry.writer.filter

def sources (options : Options) (entry : Entry) : List (Bytes × Bytes) :=
  [(entry.clazz ++ ascii ".cpp", entry.writer.writeImpl (basename (Build.headerFileName options entry.clazz))),
    (entry.clazz ++ ascii ".h", entry.writer.writeHeader (Build.headerFileName options entry.clazz))]

end Entry

section Outputs

variable (options : Options) (entries : List Entry)

def factoryIncOf : Bytes :=
  entries.flatMap (fun entry => entry.writer.factoryInclude (basename (Build.headerFileName options entry.clazz)))

def componentsOf : Bytes :=
  entries.flatMap (fun entry => entry.writer.componentEntry options.moduleName options.loggerName)

def handlersOf : Bytes := entries.flatMap (fun entry => entry.writer.handlerEntry options.threadPoolName)

def factoryFiles : List (Bytes × Bytes) :=
  [(ascii "cpsp_pages.hpp", Build.pagesText (factoryIncOf options entries)),
    (ascii "cpsp_factory.inc", Build.generated ++ entries.flatMap (fun entry => entry.writer.factoryEntry))]

def configFiles : List (Bytes × Bytes) :=
  [(ascii "components.xml", Build.configText "components" (componentsOf options entries)),
    (ascii "handlers.xml", Build.configText "handlers" (handlersOf options entries))]

def makeFiles : List (Bytes × Bytes) :=
  [(ascii "Makefile.am", Build.makefileText options
    (entries.map (fun entry => Build.implFileName options entry.clazz)))]

def listFiles : List (Bytes × Bytes) :=
  (if options.updateFactory then factoryFiles options entries else []) ++
    ((if options.updateConfigFiles then configFiles options entries else []) ++
      (if options.updateMakefile then makeFiles options entries else []))

def sourceFiles : List (Bytes × Bytes) := entries.flatMap (Entry.sources options)

def outputs : List (Bytes × Bytes) := sourceFiles options entries ++ listFiles options entries

end Outputs

section Disk

variable {F : Type} [DecidableEq F] (place : Bytes → Option F) (options : Options)

def placed (texts : List (Bytes × Bytes)) : List (F × Bytes) :=
  texts.filterMap (fun text => (place (options.outputPath ++ text.1)).map (fun file => (file, text.2)))

omit [DecidableEq F] in
theorem placed_append (first later : List (Bytes × Bytes)) :
    placed place options (first ++ later) = placed place options first ++ placed place options later :=
  List.filterMap_append

theorem save_eq (build : Build F) (name text : Bytes) :
    build.save place (options.outputPath ++ name) text =
      { build with disk := writeAll build.disk (placed place options [(name, text)]) } := by
  unfold Build.save placed
  cases found : place (options.outputPath ++ name) with
  | none => simp [writeAll, found]
  | some file => simp [writeAll, found]

omit [DecidableEq F] in
theorem mem_placed {texts : List (Bytes × Bytes)} {write : F × Bytes} (member : write ∈ placed place options texts) :
    ∃ text ∈ texts, place (options.outputPath ++ text.1) = some write.1 ∧ text.2 = write.2 := by
  obtain ⟨text, listed, same⟩ := List.mem_filterMap.mp member
  obtain ⟨file, found, rfl⟩ := Option.map_eq_some_iff.mp same
  exact ⟨text, listed, found, rfl⟩

/-- Different names in the directory of the output are different files. -/
def NamesApart : Prop :=
  ∀ left right file, (47 : UInt8) ∉ left → (47 : UInt8) ∉ right → place (options.outputPath ++ left) = some file →
    place (options.outputPath ++ right) = some file → left = right

variable {place options}

omit [DecidableEq F] in
theorem placed_distinct (apart : NamesApart place options) (texts : List (Bytes × Bytes))
    (plain : ∀ text ∈ texts, (47 : UInt8) ∉ text.1) (distinct : (texts.map Prod.fst).Nodup) :
    ((placed place options texts).map Prod.fst).Nodup := by
  rw [List.Nodup, List.pairwise_map] at distinct ⊢
  rw [placed, List.pairwise_filterMap]
  refine distinct.imp_of_mem ?_
  intro left right leftMember rightMember differ leftFile leftPlaced rightFile rightPlaced same
  obtain ⟨file, leftFound, rfl⟩ := Option.map_eq_some_iff.mp leftPlaced
  obtain ⟨other, rightFound, rfl⟩ := Option.map_eq_some_iff.mp rightPlaced
  cases same
  exact differ (apart left.1 right.1 file (plain left leftMember) (plain right rightMember) leftFound rightFound)

theorem writeAll_placed (apart : NamesApart place options) {disk : F → Option Bytes} {texts : List (Bytes × Bytes)}
    (plain : ∀ text ∈ texts, (47 : UInt8) ∉ text.1) (distinct : (texts.map Prod.fst).Nodup) {name text : Bytes}
    (member : (name, text) ∈ texts) {file : F} (found : place (options.outputPath ++ name) = some file) :
    writeAll disk (placed place options texts) file = some text := by
  have listed : (file, text) ∈ placed place options texts :=
    List.mem_filterMap.mpr ⟨(name, text), member, by rw [found]; rfl⟩
  exact writeAll_mem disk _ (placed_distinct apart texts plain distinct) listed

theorem writeAll_untouched {disk : F → Option Bytes} {texts : List (Bytes × Bytes)} {file : F}
    (untouched : ∀ text ∈ texts, place (options.outputPath ++ text.1) ≠ some file) :
    writeAll disk (placed place options texts) file = disk file := by
  apply writeAll_other
  rintro write member rfl
  obtain ⟨text, listed, found, _⟩ := mem_placed place options member
  exact untouched text listed found

end Disk

section Names

theorem listFiles_names (options : Options) (entries : List Entry) :
    ((listFiles options entries).map Prod.fst).Nodup ∧ ∀ name ∈ (listFiles options entries).map Prod.fst,
      (47 : UInt8) ∉ name ∧ ¬ascii ".cpp" <:+ name ∧ ¬ascii ".h" <:+ name := by
  simp only [listFiles, factoryFiles, configFiles, makeFiles]
  cases options.updateFactory <;> cases options.updateConfigFiles <;> cases options.updateMakefile <;>
    simp only [Bool.false_eq_true, if_true, if_false, List.nil_append, List.append_nil, List.cons_append, List.map_cons,
      List.map_nil] <;>
    decide +kernel

theorem sources_names (options : Options) (entry : Entry) :
    (entry.sources options).map Prod.fst = [entry.clazz ++ ascii ".cpp", entry.clazz ++ ascii ".h"] := rfl

theorem sourceFiles_names (options : Options) (entries : List Entry) (distinct : (entries.map Entry.clazz).Nodup) :
    ((sourceFiles options entries).map Prod.fst).Nodup := by
  have differ : ∀ left right : Bytes, left ++ ascii ".cpp" ≠ right ++ ascii ".h" := by
    intro left right same
    have last := congrArg List.getLast? same
    simp [ascii] at last
  rw [sourceFiles, List.map_flatMap, List.nodup_flatMap]
  constructor
  · intro entry _
    rw [sources_names]
    simpa using differ entry.clazz entry.clazz
  · rw [List.Nodup, List.pairwise_map] at distinct
    refine distinct.imp ?_
    intro left right other name leftMember rightMember
    simp only [sources_names, List.mem_cons, List.not_mem_nil, or_false] at leftMember rightMember
    rcases leftMember with rfl | rfl
    · rcases rightMember with same | same
      · exact other (List.append_cancel_right same)
      · exact differ _ _ same
    · rcases rightMember with same | same
      · exact differ _ _ same.symm
      · exact other (List.append_cancel_right same)

theorem outputs_names (options : Options) (entries : List Entry) (distinct : (entries.map Entry.clazz).Nodup) :
    ((outputs options entries).map Prod.fst).Nodup := by
  obtain ⟨lists, plain⟩ := listFiles_names options entries
  rw [outputs, List.map_append, List.nodup_append']
  refine ⟨sourceFiles_names options entries distinct, lists, ?_⟩
  intro name source listed
  obtain ⟨_, noImpl, noHeader⟩ := plain name listed
  rw [sourceFiles, List.map_flatMap] at source
  obtain ⟨entry, _, member⟩ := List.mem_flatMap.mp source
  simp only [sources_names, List.mem_cons, List.not_mem_nil, or_false] at member
  rcases member with rfl | rfl
  · exact noImpl (List.suffix_append _ _)
  · exact noHeader (List.suffix_append _ _)

theorem sourceFiles_plain {options : Options} {entries : List Entry}
    (plain : ∀ entry ∈ entries, (47 : UInt8) ∉ entry.clazz) :
    ∀ text ∈ sourceFiles options entries, (47 : UInt8) ∉ text.1 := by
  intro text member
  obtain ⟨entry, listed, source⟩ := List.mem_flatMap.mp member
  have clean := plain entry listed
  rcases List.mem_cons.mp source with rfl | later
  · simp [clean, ascii]
  · rw [List.mem_singleton.mp later]
    simp [clean, ascii]

theorem outputs_plain {options : Options} {entries : List Entry}
    (plain : ∀ entry ∈ entries, (47 : UInt8) ∉ entry.clazz) :
    ∀ text ∈ outputs options entries, (47 : UInt8) ∉ text.1 := by
  intro text member
  rcases List.mem_append.mp member with source | listed
  · exact sourceFiles_plain plain text source
  · exact ((listFiles_names options entries).2 text.1 (List.mem_map_of_mem listed)).1

end Names

section Collected

variable {F : Type} [DecidableEq F] (place : Bytes → Option F) (depth : Nat) (options : Options)

/-- The pages that have a class, in their order. Each is read when the files of those before it
were written. -/
inductive Collects (disk : F → Option Bytes) : List Entry → List Bytes → List Entry → Prop where
  | done (entries : List Entry) : Collects disk entries [] entries
  | skip {entries all : List Entry} {path : Bytes} {rest : List Bytes} {page : Page}
      (read : parseClass place depth (writeAll disk (placed place options (sourceFiles options entries))) path =
        .ok (page, []))
      (later : Collects disk entries rest all) : Collects disk entries (path :: rest) all
  | take {entries all : List Entry} {path : Bytes} {rest : List Bytes} {page : Page} {clazz : Bytes}
      (read : parseClass place depth (writeAll disk (placed place options (sourceFiles options entries))) path =
        .ok (page, clazz))
      (named : clazz ≠ []) (later : Collects disk (entries ++ [⟨path, ⟨page, clazz⟩⟩]) rest all) :
      Collects disk entries (path :: rest) all

structure Collected (disk : F → Option Bytes) (entries : List Entry) (build : Build F) : Prop where
  classes : Indexes build.classes entries (fun entry => some entry.clazz) Entry.path
  components : Indexes build.components entries (Entry.key options) Entry.clazz
  filters : Indexes build.filters entries Entry.filter (fun entry => entry.writer.componentName)
  factoryInc : build.factoryInc = factoryIncOf options entries
  factory : build.factory = entries.flatMap (fun entry => entry.writer.factoryEntry)
  componentsConfig : build.componentsConfig = componentsOf options entries
  handlersConfig : build.handlersConfig = handlersOf options entries
  srcFiles : build.srcFiles = entries.map (fun entry => Build.implFileName options entry.clazz)
  disk : build.disk = writeAll disk (placed place options (sourceFiles options entries))

/-- An earlier page is in the way of a page, and the error names it. -/
inductive Refused (entries : List Entry) (entry : Entry) : PageError → Prop where
  | clazz (other : Entry) (earlier : other ∈ entries) (same : other.clazz = entry.clazz) :
      Refused entries entry (duplicateClass entry.clazz entry.path other.path)
  | component (key : Bytes) (other : Entry) (earlier : other ∈ entries) (named : entry.key options = some key)
      (same : other.key options = some key) :
      Refused entries entry (duplicateComponent key entry.clazz other.clazz)
  | filter (filter : Bytes) (other : Entry) (earlier : other ∈ entries) (named : entry.filter = some filter)
      (same : other.filter = some filter) :
      Refused entries entry (duplicateFilter filter entry.writer.componentName other.writer.componentName)

theorem collected_start (disk : F → Option Bytes) : Collected place options disk [] (Build.start disk) :=
  ⟨.empty, .empty, .empty, rfl, rfl, rfl, rfl, rfl, rfl⟩

section Write

variable (entry : Entry) (build : Build F)

theorem writeSources_eq : build.writeSources place options entry.writer =
    { build with
      factoryInc := build.factoryInc ++
        entry.writer.factoryInclude (basename (Build.headerFileName options entry.clazz))
      factory := build.factory ++ entry.writer.factoryEntry
      disk := writeAll build.disk (placed place options (entry.sources options)) } := by
  have split : entry.sources options =
      [(entry.clazz ++ ascii ".cpp", entry.writer.writeImpl (basename (Build.headerFileName options entry.clazz)))] ++
        [(entry.clazz ++ ascii ".h", entry.writer.writeHeader (Build.headerFileName options entry.clazz))] := rfl
  have impl : Build.implFileName options entry.writer.clazz = options.outputPath ++ (entry.clazz ++ ascii ".cpp") := rfl
  have header : Build.headerFileName options entry.writer.clazz =
      options.outputPath ++ (entry.clazz ++ ascii ".h") := rfl
  rw [split, placed_append, writeAll_append, Build.writeSources, impl]
  simp only [save_eq, header]
  rfl

theorem componentEntry_nil (unnamed : entry.key options = none) :
    entry.writer.componentEntry options.moduleName options.loggerName = [] := by
  unfold Entry.key CodeWriter.key at unnamed
  split at unnamed
  · next empty => exact if_pos empty
  · cases unnamed

variable {options}

omit [DecidableEq F] in
theorem writeComponentsConfig_cases {entries : List Entry}
    (indexes : Indexes build.components entries (Entry.key options) Entry.clazz) :
    (∃ components, build.writeComponentsConfig options entry.writer =
        ({ build with
          componentsConfig := build.componentsConfig ++
            entry.writer.componentEntry options.moduleName options.loggerName
          components := components }, none) ∧
        Indexes components (entries ++ [entry]) (Entry.key options) Entry.clazz) ∨
      ∃ exn, build.writeComponentsConfig options entry.writer = (build, some exn) ∧
        Refused options entries entry exn := by
  unfold Build.writeComponentsConfig
  cases named : entry.writer.key options.moduleName with
  | none =>
      refine Or.inl ⟨build.components, ?_, indexes.concat_none named⟩
      rw [componentEntry_nil options entry named, List.append_nil]
  | some key =>
      cases known : build.components.find? key with
      | none =>
          refine Or.inl ⟨build.components.assign key entry.clazz, ?_, indexes.concat stringLess_exact named known⟩
          simp only [known]
          rfl
      | some previous =>
          obtain ⟨other, earlier, same, rfl⟩ := indexes.present known
          refine Or.inr ⟨_, ?_, .component key other earlier named same⟩
          simp only [known]
          rfl

omit [DecidableEq F] in
theorem writeHandlersConfig_cases {entries : List Entry}
    (indexes : Indexes build.filters entries Entry.filter (fun entry => entry.writer.componentName)) :
    (∃ filters, build.writeHandlersConfig options entry.writer =
        ({ build with
          handlersConfig := build.handlersConfig ++ entry.writer.handlerEntry options.threadPoolName
          filters := filters }, none) ∧
        Indexes filters (entries ++ [entry]) Entry.filter (fun entry => entry.writer.componentName)) ∨
      ∃ exn, build.writeHandlersConfig options entry.writer = (build, some exn) ∧
        Refused options entries entry exn := by
  unfold Build.writeHandlersConfig
  cases named : entry.writer.filter with
  | none =>
      refine Or.inl ⟨build.filters, ?_, indexes.concat_none named⟩
      rw [CodeWriter.handlerEntry, named, List.append_nil]
  | some filter =>
      cases known : build.filters.find? filter with
      | none =>
          refine Or.inl ⟨build.filters.assign filter entry.writer.componentName, ?_,
            indexes.concat stringLess_exact named known⟩
          simp only [known]
      | some previous =>
          obtain ⟨other, earlier, same, rfl⟩ := indexes.present known
          refine Or.inr ⟨_, ?_, .filter filter other earlier named same⟩
          simp only [known]

theorem write_cases {entries : List Entry}
    (components : Indexes build.components entries (Entry.key options) Entry.clazz)
    (filters : Indexes build.filters entries Entry.filter (fun entry => entry.writer.componentName)) :
    (∃ next, build.write place options entry.writer = (next, none) ∧
        next.classes = build.classes ∧ Indexes next.components (entries ++ [entry]) (Entry.key options) Entry.clazz ∧
        Indexes next.filters (entries ++ [entry]) Entry.filter (fun entry => entry.writer.componentName) ∧
        next.factoryInc = build.factoryInc ++
          entry.writer.factoryInclude (basename (Build.headerFileName options entry.clazz)) ∧
        next.factory = build.factory ++ entry.writer.factoryEntry ∧
        next.componentsConfig = build.componentsConfig ++
          entry.writer.componentEntry options.moduleName options.loggerName ∧
        next.handlersConfig = build.handlersConfig ++ entry.writer.handlerEntry options.threadPoolName ∧
        next.srcFiles = build.srcFiles ++ [Build.implFileName options entry.clazz] ∧
        next.disk = writeAll build.disk (placed place options (entry.sources options))) ∨
      ∃ next exn, build.write place options entry.writer = (next, some exn) ∧ Refused options entries entry exn ∧
        next.disk = writeAll build.disk (placed place options (entry.sources options)) := by
  have facts := writeSources_eq place options entry build
  unfold Build.write
  generalize build.writeSources place options entry.writer = saved at facts ⊢
  have keyed : Indexes saved.components entries (Entry.key options) Entry.clazz := by
    rw [facts]
    exact components
  have filtered : Indexes saved.filters entries Entry.filter (fun entry => entry.writer.componentName) := by
    rw [facts]
    exact filters
  rcases writeComponentsConfig_cases entry saved keyed with ⟨named, same, indexed⟩ | ⟨exn, same, refused⟩
  · rw [same]
    dsimp only
    rcases writeHandlersConfig_cases entry
      { saved with
        componentsConfig := saved.componentsConfig ++
          entry.writer.componentEntry options.moduleName options.loggerName
        components := named } filtered with ⟨selected, added, all⟩ | ⟨exn, added, refused⟩
    · rw [added]
      subst facts
      exact Or.inl ⟨_, rfl, rfl, indexed, all, rfl, rfl, rfl, rfl, rfl, rfl⟩
    · rw [added]
      subst facts
      exact Or.inr ⟨_, exn, rfl, refused, rfl⟩
  · rw [same]
    subst facts
    exact Or.inr ⟨_, exn, rfl, refused, rfl⟩

end Write

theorem sourceFiles_concat (entries : List Entry) (entry : Entry) :
    sourceFiles options (entries ++ [entry]) = sourceFiles options entries ++ entry.sources options := by
  simp [sourceFiles]

inductive Compiled (disk : F → Option Bytes) (entries : List Entry) (build : Build F) (path : Bytes) :
    Outcome F → Prop where
  | unread (exn : PageError) (read : parseClass place depth build.disk path = .error exn) :
      Compiled disk entries build path (build, some exn)
  | skipped (page : Page) (read : parseClass place depth build.disk path = .ok (page, [])) :
      Compiled disk entries build path (build, none)
  | added (page : Page) (clazz : Bytes) (next : Build F)
      (read : parseClass place depth build.disk path = .ok (page, clazz)) (named : clazz ≠ [])
      (collected : Collected place options disk (entries ++ [⟨path, ⟨page, clazz⟩⟩]) next) :
      Compiled disk entries build path (next, none)
  | refused (page : Page) (clazz : Bytes) (next : Build F) (exn : PageError) (written : List Entry)
      (read : parseClass place depth build.disk path = .ok (page, clazz)) (named : clazz ≠ [])
      (refused : Refused options entries ⟨path, ⟨page, clazz⟩⟩ exn)
      (kept : written = entries ∨ written = entries ++ [⟨path, ⟨page, clazz⟩⟩])
      (distinct : (written.map Entry.clazz).Nodup)
      (after : next.disk = writeAll disk (placed place options (sourceFiles options written))) :
      Compiled disk entries build path (next, some exn)

theorem filterMap_clazz (entries : List Entry) :
    entries.filterMap (fun entry => some entry.clazz) = entries.map Entry.clazz := by
  rw [← List.filterMap_eq_map]
  rfl

theorem Collected.distinct {disk : F → Option Bytes} {entries : List Entry} {build : Build F}
    (collected : Collected place options disk entries build) : (entries.map Entry.clazz).Nodup := by
  have distinct := collected.classes.distinct
  rwa [filterMap_clazz] at distinct

theorem compile_compiled {disk : F → Option Bytes} {entries : List Entry} {build : Build F}
    (collected : Collected place options disk entries build) (path : Bytes) :
    Compiled place depth options disk entries build path (build.compile place depth options path) := by
  unfold Build.compile
  cases read : parseClass place depth build.disk path with
  | error exn => exact .unread exn read
  | ok found =>
      obtain ⟨page, clazz⟩ := found
      dsimp only
      by_cases empty : clazz = []
      · subst empty
        exact .skipped page read
      · have filled : ¬clazz.isEmpty = true := by simpa using empty
        rw [if_neg filled]
        cases known : build.classes.find? clazz with
        | some previous =>
            obtain ⟨other, earlier, same, rfl⟩ := collected.classes.present known
            exact .refused page clazz build _ entries read empty (.clazz other earlier (Option.some.inj same))
              (Or.inl rfl) (collected.distinct) collected.disk
        | none =>
            have itself : (fun entry : Entry => some entry.clazz) ⟨path, ⟨page, clazz⟩⟩ = some clazz := rfl
            have classes : Indexes (build.classes.assign clazz path) (entries ++ [⟨path, ⟨page, clazz⟩⟩])
                (fun entry => some entry.clazz) Entry.path :=
              collected.classes.concat stringLess_exact itself known
            have distinct : ((entries ++ [(⟨path, ⟨page, clazz⟩⟩ : Entry)]).map Entry.clazz).Nodup := by
              have all := classes.distinct
              rwa [filterMap_clazz] at all
            rcases write_cases place ⟨path, ⟨page, clazz⟩⟩
              { build with classes := build.classes.assign clazz path } collected.components collected.filters with
              ⟨next, same, known, components, filters, factoryInc, factory, componentsConfig, handlersConfig, srcFiles,
                disk_⟩ | ⟨next, exn, same, refused, disk_⟩
            · dsimp only at same
              rw [same]
              refine .added page clazz next read empty ⟨?_, components, filters, ?_, ?_, ?_, ?_, ?_, ?_⟩
              · rw [known]
                exact classes
              · rw [factoryInc, collected.factoryInc]
                simp [factoryIncOf]
              · rw [factory, collected.factory]
                simp
              · rw [componentsConfig, collected.componentsConfig]
                simp [componentsOf]
              · rw [handlersConfig, collected.handlersConfig]
                simp [handlersOf]
              · rw [srcFiles, collected.srcFiles]
                simp
              · rw [disk_, collected.disk, sourceFiles_concat, placed_append, writeAll_append]
            · dsimp only at same
              rw [same]
              refine .refused page clazz next exn _ read empty refused (Or.inr rfl) distinct ?_
              rw [disk_, collected.disk, sourceFiles_concat, placed_append, writeAll_append]

end Collected

section Runs

variable {F : Type} [DecidableEq F] {place : Bytes → Option F} {depth : Nat} {options : Options}
  {disk : F → Option Bytes}

theorem compileAll_done (pages : List Bytes) {entries : List Entry} {build next : Build F}
    (collected : Collected place options disk entries build)
    (done : build.compileAll place depth options pages = (next, none)) :
    ∃ all, Collects place depth options disk entries pages all ∧ Collected place options disk all next := by
  induction pages generalizing entries build with
  | nil =>
      cases done
      exact ⟨entries, .done entries, collected⟩
  | cons path rest ih =>
      have compiled := compile_compiled place depth options collected path
      rw [Build.compileAll] at done
      cases outcome : build.compile place depth options path with
      | mk after thrown =>
          rw [outcome] at done compiled
          cases compiled with
          | unread exn read => cases done
          | skipped page read =>
              obtain ⟨all, later, final⟩ := ih collected done
              rw [collected.disk] at read
              exact ⟨all, .skip read later, final⟩
          | added page clazz next read named added =>
              obtain ⟨all, later, final⟩ := ih added done
              rw [collected.disk] at read
              exact ⟨all, .take read named later, final⟩
          | refused page clazz next exn written read named refused kept distinct after => cases done

theorem compileAll_stopped (pages : List Bytes) {entries : List Entry} {build next : Build F} {error : PageError}
    (collected : Collected place options disk entries build)
    (stopped : build.compileAll place depth options pages = (next, some error)) :
    ∃ before path after reached middle, pages = before ++ path :: after ∧
      Collects place depth options disk entries before reached ∧ Collected place options disk reached middle ∧
      Compiled place depth options disk reached middle path (next, some error) := by
  induction pages generalizing entries build with
  | nil => cases stopped
  | cons path rest ih =>
      have compiled := compile_compiled place depth options collected path
      rw [Build.compileAll] at stopped
      cases outcome : build.compile place depth options path with
      | mk after thrown =>
          rw [outcome] at stopped compiled
          cases thrown with
          | some exn =>
              cases stopped
              exact ⟨[], path, rest, entries, build, rfl, .done entries, collected, compiled⟩
          | none =>
              cases compiled with
              | skipped page read =>
                  obtain ⟨before, last, behind, reached, middle, rfl, later, final, ends⟩ := ih collected stopped
                  rw [collected.disk] at read
                  exact ⟨path :: before, last, behind, reached, middle, rfl, .skip read later, final, ends⟩
              | added page clazz next read named added =>
                  obtain ⟨before, last, behind, reached, middle, rfl, later, final, ends⟩ := ih added stopped
                  rw [collected.disk] at read
                  exact ⟨path :: before, last, behind, reached, middle, rfl, .take read named later, final, ends⟩

theorem writeFactory_eq (build : Build F) : build.writeFactory place options =
    { build with
      disk := writeAll build.disk (placed place options
        [(ascii "cpsp_pages.hpp", Build.pagesText build.factoryInc),
          (ascii "cpsp_factory.inc", Build.generated ++ build.factory)]) } := by
  have split : ∀ first later : Bytes × Bytes, [first, later] = [first] ++ [later] := fun _ _ => rfl
  rw [split, placed_append, writeAll_append, Build.writeFactory, save_eq, save_eq]

theorem writeConfigFiles_eq (build : Build F) : build.writeConfigFiles place options =
    { build with
      disk := writeAll build.disk (placed place options
        [(ascii "components.xml", Build.configText "components" build.componentsConfig),
          (ascii "handlers.xml", Build.configText "handlers" build.handlersConfig)]) } := by
  have split : ∀ first later : Bytes × Bytes, [first, later] = [first] ++ [later] := fun _ _ => rfl
  rw [split, placed_append, writeAll_append, Build.writeConfigFiles, save_eq, save_eq]

theorem writeMakeFile_eq (build : Build F) : build.writeMakeFile place options =
    { build with
      disk := writeAll build.disk (placed place options
        [(ascii "Makefile.am", Build.makefileText options build.srcFiles)]) } := by
  rw [Build.writeMakeFile, save_eq]

theorem finish_disk {entries : List Entry} {build : Build F} (collected : Collected place options disk entries build) :
    (build.finish place options).disk = writeAll disk (placed place options (outputs options entries)) := by
  rw [outputs, placed_append, writeAll_append, ← collected.disk, listFiles, placed_append, writeAll_append,
    placed_append, writeAll_append, factoryFiles, configFiles, makeFiles, ← collected.factoryInc, ← collected.factory,
    ← collected.componentsConfig, ← collected.handlersConfig, ← collected.srcFiles]
  unfold Build.finish
  cases options.updateFactory <;> cases options.updateConfigFiles <;> cases options.updateMakefile <;>
    simp only [Bool.false_eq_true, if_true, if_false, writeFactory_eq, writeConfigFiles_eq, writeMakeFile_eq] <;>
    rfl

theorem Collects.extends {entries all : List Entry} {pages : List Bytes}
    (collects : Collects place depth options disk entries pages all) : entries <+: all := by
  induction collects with
  | done entries => exact List.prefix_rfl
  | skip _ _ ih => exact ih
  | take _ _ _ ih => exact (List.prefix_append _ _).trans ih

theorem apart_of_nodup {β : Type} (name : Entry → Option β) {entries : List Entry} {entry other : Entry} {value : β}
    (distinct : ((entries ++ [entry]).filterMap name).Nodup) (earlier : other ∈ entries)
    (named : name entry = some value) : name other ≠ some value := by
  intro same
  have single : [entry].filterMap name = [value] := by simp [named]
  rw [List.filterMap_append, single, List.nodup_append', List.disjoint_singleton] at distinct
  exact distinct.2.2 (List.mem_filterMap.mpr ⟨other, earlier, same⟩)

theorem not_refused {entries all : List Entry} {entry : Entry} {exn : PageError} (within : entries ++ [entry] <+: all)
    (classes : (all.map Entry.clazz).Nodup) (keys : (all.filterMap (Entry.key options)).Nodup)
    (filters : (all.filterMap Entry.filter).Nodup) : ¬Refused options entries entry exn := by
  intro refused
  cases refused with
  | clazz other earlier same =>
      rw [← filterMap_clazz] at classes
      have distinct := (within.sublist.filterMap (fun entry => some entry.clazz)).nodup classes
      exact apart_of_nodup _ distinct earlier rfl (congrArg some same)
  | component key other earlier named same =>
      exact apart_of_nodup _ ((within.sublist.filterMap (Entry.key options)).nodup keys) earlier named same
  | filter filter other earlier named same =>
      exact apart_of_nodup _ ((within.sublist.filterMap Entry.filter).nodup filters) earlier named same

theorem Compiled.skips {entries : List Entry} {build : Build F} {path : Bytes} {page : Page} {outcome : Outcome F}
    (compiled : Compiled place depth options disk entries build path outcome)
    (read : parseClass place depth build.disk path = .ok (page, [])) : outcome = (build, none) := by
  cases compiled with
  | unread exn failed =>
      rw [read] at failed
      cases failed
  | skipped page again => rfl
  | added page clazz next again named collected =>
      rw [read] at again
      cases again
      exact absurd rfl named
  | refused page clazz next exn written again named refused kept distinct after =>
      rw [read] at again
      cases again
      exact absurd rfl named

theorem Compiled.adds {entries : List Entry} {build : Build F} {path clazz : Bytes} {page : Page} {outcome : Outcome F}
    (compiled : Compiled place depth options disk entries build path outcome)
    (read : parseClass place depth build.disk path = .ok (page, clazz)) (named : clazz ≠ [])
    (free : ∀ exn, ¬Refused options entries ⟨path, ⟨page, clazz⟩⟩ exn) :
    ∃ next, outcome = (next, none) ∧ Collected place options disk (entries ++ [⟨path, ⟨page, clazz⟩⟩]) next := by
  cases compiled with
  | unread exn failed =>
      rw [read] at failed
      cases failed
  | skipped page again =>
      rw [read] at again
      cases again
      exact absurd rfl named
  | added page clazz next again _ collected =>
      rw [read] at again
      cases again
      exact ⟨next, rfl, collected⟩
  | refused page clazz next exn written again _ refused kept distinct after =>
      rw [read] at again
      cases again
      exact absurd refused (free exn)

theorem compileAll_complete {entries all : List Entry} {pages : List Bytes} {build : Build F}
    (collects : Collects place depth options disk entries pages all) (classes : (all.map Entry.clazz).Nodup)
    (keys : (all.filterMap (Entry.key options)).Nodup) (filters : (all.filterMap Entry.filter).Nodup)
    (collected : Collected place options disk entries build) :
    (build.compileAll place depth options pages).2 = none := by
  induction collects generalizing build with
  | done entries => rfl
  | @skip entries all path rest page read later ih =>
      rw [← collected.disk] at read
      have same := (compile_compiled place depth options collected path).skips read
      rw [Build.compileAll, same]
      exact ih classes keys filters collected
  | @take entries all path rest page clazz read named later ih =>
      rw [← collected.disk] at read
      have free : ∀ exn, ¬Refused options entries ⟨path, ⟨page, clazz⟩⟩ exn :=
        fun exn => not_refused later.extends classes keys filters
      obtain ⟨next, same, added⟩ := (compile_compiled place depth options collected path).adds read named free
      rw [Build.compileAll, same]
      exact ih classes keys filters added

end Runs

section Results

variable {F : Type} [DecidableEq F] (place : Bytes → Option F) (depth : Nat) (options : Options)

/-- What a build writes: nothing at all without pages, and otherwise also the lists of what was compiled. -/
def runOutputs (pages : List Bytes) (entries : List Entry) : List (Bytes × Bytes) :=
  if pages.isEmpty then [] else outputs options entries

theorem compilePages_filled {pages : List Bytes} (filled : pages ≠ []) (disk : F → Option Bytes) :
    compilePages place depth options pages disk =
      match (Build.start disk).compileAll place depth options pages with
      | (build, some exn) => (build, some exn)
      | (build, none) => (build.finish place options, none) :=
  if_neg (by simpa using filled)

def samplePages (path : Bytes) : Option Bytes :=
  if path = ascii "a.cpsp" then some (ascii "<%@page class=\"A\"%>a")
  else if path = ascii "b.cpsp" then some (ascii "<%@page class=\"B\"%>b")
  else if path = ascii "c.cpsp" then some (ascii "<%@page class=\"A\"%>c")
  else none

theorem sample_apart : NamesApart (some : Bytes → Option Bytes) Options.default := by
  intro left right file _ _ leftFound rightFound
  cases leftFound
  exact (List.append_cancel_left (Option.some.inj rightFound)).symm

def listNames : List Bytes :=
  [ascii "cpsp_pages.hpp", ascii "cpsp_factory.inc", ascii "components.xml", ascii "handlers.xml", ascii "Makefile.am"]

theorem listNames_apart (name : Bytes) (listed : name ∈ listNames) :
    (47 : UInt8) ∉ name ∧ ¬ascii ".cpp" <:+ name ∧ ¬ascii ".h" <:+ name := by
  have all : ∀ name ∈ listNames, (47 : UInt8) ∉ name ∧ ¬ascii ".cpp" <:+ name ∧ ¬ascii ".h" <:+ name := by
    decide +kernel
  exact all name listed

theorem sourceFiles_unlisted {entries : List Entry} {name : Bytes} (listed : name ∈ listNames) :
    ∀ text ∈ sourceFiles options entries, text.1 ≠ name := by
  rintro text member rfl
  obtain ⟨_, noImpl, noHeader⟩ := listNames_apart text.1 listed
  obtain ⟨entry, _, source⟩ := List.mem_flatMap.mp member
  rcases List.mem_cons.mp source with rfl | later
  · exact noImpl (List.suffix_append _ _)
  · rw [List.mem_singleton.mp later] at noHeader
    exact noHeader (List.suffix_append _ _)

/-- A build that stops was stopped by one page: the page cannot be read, or an earlier page is in
its way, which the error names. The pages before it have their files, and the configuration, the
factory and the makefile are what they were. -/
theorem stopped_build_is_explained (apart : NamesApart place options) (pages : List Bytes) (disk : F → Option Bytes)
    (final : Build F) (error : PageError)
    (stopped : compilePages place depth options pages disk = (final, some error)) :
    ∃ before path after entries written, pages = before ++ path :: after ∧
      Collects place depth options disk [] before entries ∧
      ((parseClass place depth (writeAll disk (placed place options (sourceFiles options entries))) path =
          .error error ∧ written = entries) ∨
        ∃ page clazz, parseClass place depth (writeAll disk (placed place options (sourceFiles options entries))) path =
          .ok (page, clazz) ∧ clazz ≠ [] ∧ Refused options entries ⟨path, ⟨page, clazz⟩⟩ error ∧
            (written = entries ∨ written = entries ++ [⟨path, ⟨page, clazz⟩⟩])) ∧
      ((∀ entry ∈ written, (47 : UInt8) ∉ entry.clazz) →
        (∀ name text file, (name, text) ∈ sourceFiles options written →
          place (options.outputPath ++ name) = some file → final.disk file = some text) ∧
        ∀ name ∈ listNames, ∀ file, place (options.outputPath ++ name) = some file →
          final.disk file = disk file) := by
  have filled : pages ≠ [] := by
    rintro rfl
    cases stopped
  rw [compilePages_filled place depth options filled] at stopped
  cases outcome : (Build.start disk).compileAll place depth options pages with
  | mk next thrown =>
      rw [outcome] at stopped
      cases thrown with
      | none => cases stopped
      | some exn =>
          cases stopped
          obtain ⟨before, path, after, entries, middle, same, collects, collected, compiled⟩ :=
            compileAll_stopped pages (collected_start place options disk) outcome
          -- what was written, in either case
          have intact : ∀ written : List Entry, (written.map Entry.clazz).Nodup →
              final.disk = writeAll disk (placed place options (sourceFiles options written)) →
              (∀ entry ∈ written, (47 : UInt8) ∉ entry.clazz) →
              (∀ name text file, (name, text) ∈ sourceFiles options written →
                place (options.outputPath ++ name) = some file → final.disk file = some text) ∧
              ∀ name ∈ listNames, ∀ file, place (options.outputPath ++ name) = some file →
                final.disk file = disk file := by
            intro written distinct files plain
            constructor
            · intro name text file member found
              rw [files]
              exact writeAll_placed apart (sourceFiles_plain plain) (sourceFiles_names options written distinct)
                member found
            · intro name listed file found
              rw [files]
              apply writeAll_untouched
              intro text member placedThere
              have clean := (listNames_apart name listed).1
              exact sourceFiles_unlisted options listed text member
                (apart text.1 name file (sourceFiles_plain plain text member) clean placedThere found)
          cases compiled with
          | unread _ read =>
              rw [collected.disk] at read
              exact ⟨before, path, after, entries, entries, same, collects, Or.inl ⟨read, rfl⟩,
                intact entries collected.distinct collected.disk⟩
          | refused page clazz _ _ written read named refused kept distinct files =>
              rw [collected.disk] at read
              exact ⟨before, path, after, entries, written, same, collects,
                Or.inr ⟨page, clazz, read, named, refused, kept⟩, intact written distinct files⟩

theorem stopped_build_is_explained_sample :
    ∃ final error before path after, [ascii "a.cpsp", ascii "b.cpsp", ascii "c.cpsp"] = before ++ path :: after ∧
      error = duplicateClass (ascii "A") (ascii "c.cpsp") (ascii "a.cpsp") ∧
      compilePages some 1 Options.default [ascii "a.cpsp", ascii "b.cpsp", ascii "c.cpsp"] samplePages =
        (final, some error) := by
  have fails : (compilePages some 1 Options.default [ascii "a.cpsp", ascii "b.cpsp", ascii "c.cpsp"] samplePages).2 =
      some (duplicateClass (ascii "A") (ascii "c.cpsp") (ascii "a.cpsp")) := by
    decide +kernel
  have stopped : compilePages some 1 Options.default [ascii "a.cpsp", ascii "b.cpsp", ascii "c.cpsp"] samplePages =
      ((compilePages some 1 Options.default [ascii "a.cpsp", ascii "b.cpsp", ascii "c.cpsp"] samplePages).1,
        some (duplicateClass (ascii "A") (ascii "c.cpsp") (ascii "a.cpsp"))) := Prod.ext rfl fails
  obtain ⟨before, path, after, _, _, same, _⟩ :=
    stopped_build_is_explained some 1 Options.default sample_apart _ samplePages _ _ stopped
  exact ⟨_, _, before, path, after, same, rfl, stopped⟩

/-- A build succeeds exactly if every page can be parsed when its turn comes, and no two pages
have the same class, component or filter. -/
theorem build_succeeds_iff (pages : List Bytes) (disk : F → Option Bytes) :
    (compilePages place depth options pages disk).2 = none ↔
      ∃ entries, Collects place depth options disk [] pages entries ∧ (entries.map Entry.clazz).Nodup ∧
        (entries.filterMap (Entry.key options)).Nodup ∧ (entries.filterMap Entry.filter).Nodup := by
  have start := collected_start place options disk
  by_cases filled : pages = []
  · subst filled
    exact ⟨fun _ => ⟨[], .done [], .nil, .nil, .nil⟩, fun _ => rfl⟩
  rw [compilePages_filled place depth options filled]
  constructor
  · intro built
    cases outcome : (Build.start disk).compileAll place depth options pages with
    | mk next thrown =>
        rw [outcome] at built
        cases thrown with
        | some exn => cases built
        | none =>
            obtain ⟨entries, collects, collected⟩ := compileAll_done pages start outcome
            exact ⟨entries, collects, collected.distinct, collected.components.distinct, collected.filters.distinct⟩
  · rintro ⟨entries, collects, classes, keys, filters⟩
    have done := compileAll_complete collects classes keys filters start
    cases outcome : (Build.start disk).compileAll place depth options pages with
    | mk next thrown =>
        rw [outcome] at done
        cases done
        rfl

end Results

end FastcgiContainer.PageCompiler
