import FastcgiContainer.HandlerSet
import FastcgiContainer.Selection

/-! Which elements of the configuration a request goes to: the first handler all of whose
patterns match, handlers with a URL before the others, and every filter all of whose
patterns match. -/

namespace FastcgiContainer

open Word (Bytes)
open Selection (First Every Along)

theorem mapM_eq_ok {α β : Type} (call : α → Except Exn β) (items : List α) (result : List β)
    (done : items.mapM call = .ok result) :
    List.Forall₂ (fun item value => call item = .ok value) items result := by
  induction items generalizing result with
  | nil =>
      cases done
      exact .nil
  | cons item rest ih =>
      rw [List.mapM_cons] at done
      obtain ⟨value, first, later⟩ := bind_eq_ok _ _ _ done
      obtain ⟨values, others, same⟩ := bind_eq_ok _ _ _ later
      cases same
      exact .cons first (ih values others)

def pathBehind (urlPrefix url : Bytes) : Bytes :=
  if !urlPrefix.isEmpty && StringUtils.beginsWith url urlPrefix then url.drop urlPrefix.length else url

/-- The text that the expression of a selector is matched against, if the request has it. -/
def Selector.subject (request : Request) : Selector → Except Exn (Option Bytes)
  | .url urlPrefix => .ok (some (pathBehind urlPrefix request.getScriptName))
  | .host => .ok (some request.getHost)
  | .port => do
      let port ← request.getServerPort
      .ok (some (decimal port))
  | .address => .ok (some request.getServerAddr)
  | .referer =>
      .ok (if request.hasHeader (ascii "Referer") then some (request.getHeader (ascii "Referer")) else none)
  | .param name => .ok (if request.hasArg name then some (request.getArg name) else none)

namespace RequestFilter

theorem checkUrl_eq (regex : Regex) (urlPrefix url : Bytes) :
    checkUrl regex urlPrefix url = regex (pathBehind urlPrefix url) := by
  unfold checkUrl pathBehind
  split <;> rfl

theorem check_eq (filter : RequestFilter) (request : Request) :
    filter.check request =
      (filter.selector.subject request >>= fun text => .ok (text.any filter.regex)) := by
  obtain ⟨selector, regex⟩ := filter
  cases selector with
  | url urlPrefix => simp [check, Selector.subject, checkUrl_eq]
  | host => rfl
  | port =>
      simp only [check, Selector.subject]
      cases request.getServerPort <;> rfl
  | address => rfl
  | referer =>
      simp only [check, Selector.subject, ok_bind]
      cases request.hasHeader (ascii "Referer") <;> simp
  | param name =>
      simp only [check, Selector.subject, ok_bind]
      cases request.hasArg name <;> simp

end RequestFilter

abbrev Pattern := Selector × Bytes

namespace Pattern

variable (compile : Bytes → Except Exn Regex) (request : Request)

/-- The request has the text, and it matches or not; `fits` says which. -/
def Decides (fits : Bool) (pattern : Pattern) : Prop :=
  ∃ regex text, compile pattern.2 = .ok regex ∧ pattern.1.subject request = .ok text ∧ text.any regex = fits

end Pattern

namespace HandlerElement

def patterns (urlPrefix : Bytes) (k : HandlerElement) : List Pattern :=
  ([(Selector.url urlPrefix, k.url), (.host, k.host), (.port, k.port), (.address, k.address),
      (.referer, k.referer)].map (fun pattern => (pattern.1, pattern.2.asStringOr [])) ++
    (k.params.filter (fun it => !(it.name.asStringOr []).isEmpty)).map
      (fun it => (Selector.param (it.name.asStringOr []), it.value.asStringOr []))).filter
    (fun pattern => !pattern.2.isEmpty)

variable (compile : Bytes → Except Exn Regex) (urlPrefix : Bytes) (request : Request)

def Takes (k : HandlerElement) : Prop := ∀ pattern ∈ k.patterns urlPrefix, pattern.Decides compile request true

def Refuses (k : HandlerElement) : Prop :=
  ∃ pattern, First (Pattern.Decides compile request false) (Pattern.Decides compile request true)
    (k.patterns urlPrefix) (some pattern)

end HandlerElement

/-- The elements for handlers in the order in which they are tried. -/
def HandlersConfig.inOrder (config : HandlersConfig) : List HandlerElement :=
  config.handlers.filter (fun k => k.url.isSome) ++ config.handlers.filter (fun k => k.url.isNone)

namespace HandlerSet

variable {η φ : Type}

section Selectors

variable (compile : Bytes → Except Exn Regex)

def Compiled (pattern : Pattern) (filter : RequestFilter) : Prop :=
  filter.selector = pattern.1 ∧ compile pattern.2 = .ok filter.regex

theorem addSelector_compiled {selectors next : List RequestFilter} {patterns : List Pattern}
    (before : List.Forall₂ (Compiled compile) patterns selectors) (selector : Selector) (filter : Bytes)
    (added : addSelector compile selectors selector filter = .ok next) :
    List.Forall₂ (Compiled compile)
      (patterns ++ [(selector, filter)].filter (fun pattern => !pattern.2.isEmpty)) next := by
  unfold addSelector at added
  by_cases empty : filter.isEmpty = true
  · rw [if_pos empty] at added
    cases added
    simpa [empty] using before
  · rw [if_neg empty] at added
    obtain ⟨created, made, same⟩ := bind_eq_ok _ _ _ added
    cases same
    unfold RequestFilter.create at made
    rw [if_neg empty] at made
    obtain ⟨regex, compiled, same⟩ := bind_eq_ok _ _ _ made
    cases same
    have kept : [(selector, filter)].filter (fun pattern => !pattern.2.isEmpty) = [(selector, filter)] := by
      simp [Bool.eq_false_iff.mpr empty]
    rw [kept]
    exact List.rel_append before (.cons ⟨rfl, compiled⟩ .nil)

theorem addParams_compiled {selectors next : List RequestFilter} {patterns : List Pattern}
    (before : List.Forall₂ (Compiled compile) patterns selectors) (params : List ParamElement)
    (added : params.foldlM (addParam compile) selectors = .ok next) :
    List.Forall₂ (Compiled compile)
      (patterns ++ ((params.filter (fun it => !(it.name.asStringOr []).isEmpty)).map
        (fun it => (Selector.param (it.name.asStringOr []), it.value.asStringOr []))).filter
          (fun pattern => !pattern.2.isEmpty)) next := by
  induction params generalizing selectors patterns with
  | nil =>
      cases added
      simpa using before
  | cons it rest ih =>
      rw [List.foldlM_cons] at added
      obtain ⟨middle, first, later⟩ := bind_eq_ok _ _ _ added
      unfold addParam at first
      by_cases unnamed : (it.name.asStringOr []).isEmpty = true
      · simp only [unnamed, if_true] at first
        cases first
        rw [List.filter_cons_of_neg (by simp [unnamed])]
        exact ih before later
      · simp only [unnamed, Bool.false_eq_true, if_false] at first
        have one := addSelector_compiled compile before _ _ first
        have all := ih one later
        rw [List.append_assoc, ← List.filter_append] at all
        rw [List.filter_cons_of_pos (by simp [unnamed]), List.map_cons]
        exact all

theorem initSelectors_compiled (urlPrefix : Bytes) (k : HandlerElement) (selectors : List RequestFilter)
    (made : initSelectors compile urlPrefix k = .ok selectors) :
    List.Forall₂ (Compiled compile) (k.patterns urlPrefix) selectors := by
  obtain ⟨afterUrl, url, made⟩ := bind_eq_ok _ _ _ made
  obtain ⟨afterHost, host, made⟩ := bind_eq_ok _ _ _ made
  obtain ⟨afterPort, port, made⟩ := bind_eq_ok _ _ _ made
  obtain ⟨afterAddress, address, made⟩ := bind_eq_ok _ _ _ made
  obtain ⟨afterReferer, referer, made⟩ := bind_eq_ok _ _ _ made
  have five := addSelector_compiled compile (addSelector_compiled compile (addSelector_compiled compile
    (addSelector_compiled compile (addSelector_compiled compile .nil _ _ url) _ _ host) _ _ port) _ _
      address) _ _ referer
  have all := addParams_compiled compile five k.params made
  simp only [List.nil_append, ← List.filter_append] at all
  exact all

end Selectors

section Match

variable (compile : Bytes → Except Exn Regex) (request : Request)

theorem check_decides (pattern : Pattern) (filter : RequestFilter) (made : Compiled compile pattern filter)
    (fits : Bool) : filter.check request = .ok fits ↔ pattern.Decides compile request fits := by
  obtain ⟨same, compiled⟩ := made
  rw [RequestFilter.check_eq, same]
  constructor
  · intro checked
    obtain ⟨text, found, answer⟩ := bind_eq_ok _ _ _ checked
    exact ⟨filter.regex, text, compiled, found, Except.ok.inj answer⟩
  · rintro ⟨regex, text, other, found, answer⟩
    rw [compiled] at other
    cases other
    rw [found, ok_bind, answer]

theorem matched_iff (selectors : List RequestFilter) (fits : Bool) :
    matched request selectors = .ok fits ↔
      ∃ found, First (fun f => f.check request = .ok false) (fun f => f.check request = .ok true)
        selectors found ∧ fits = found.isNone := by
  induction selectors with
  | nil =>
      constructor
      · intro done
        exact ⟨none, .nothing, (Except.ok.inj done).symm⟩
      · rintro ⟨found, first, rfl⟩
        cases first
        rfl
  | cons f rest ih =>
      rw [matched]
      constructor
      · intro done
        obtain ⟨answer, checked, later⟩ := bind_eq_ok _ _ _ done
        cases answer with
        | false => exact ⟨some f, .here checked, (Except.ok.inj later).symm⟩
        | true =>
            obtain ⟨found, first, same⟩ := ih.mp later
            exact ⟨found, .later checked first, same⟩
      · rintro ⟨found, first, rfl⟩
        cases first with
        | here checked =>
            rw [checked]
            rfl
        | later checked after =>
            rw [checked]
            exact ih.mpr ⟨found, after, rfl⟩

variable (urlPrefix : Bytes) (k : HandlerElement) (selectors : List RequestFilter)
  (made : initSelectors compile urlPrefix k = .ok selectors)

include made

theorem matched_decides (fits : Bool) : matched request selectors = .ok fits ↔
    ∃ found, First (Pattern.Decides compile request false) (Pattern.Decides compile request true)
      (k.patterns urlPrefix) found ∧ fits = found.isNone := by
  have pairs := initSelectors_compiled compile urlPrefix k selectors made
  have along : Along (Compiled compile) (Pattern.Decides compile request false)
      (Pattern.Decides compile request true) (fun f => f.check request = .ok false)
      (fun f => f.check request = .ok true) :=
    ⟨fun pattern filter made => (check_decides compile request pattern filter made false).symm,
      fun pattern filter made => (check_decides compile request pattern filter made true).symm⟩
  rw [matched_iff]
  constructor
  · rintro ⟨found, first, rfl⟩
    obtain ⟨other, same, first⟩ := first.transfer along.flip pairs.flip
    refine ⟨other, first, ?_⟩
    cases same <;> rfl
  · rintro ⟨found, first, rfl⟩
    obtain ⟨other, same, first⟩ := first.transfer along pairs
    refine ⟨other, first, ?_⟩
    cases same <;> rfl

theorem matched_takes : matched request selectors = .ok true ↔ k.Takes compile urlPrefix request := by
  rw [matched_decides compile request urlPrefix k selectors made, HandlerElement.Takes,
    ← Selection.first_none_iff]
  constructor
  · rintro ⟨found, first, none⟩
    rw [Option.isNone_iff_eq_none.mp none.symm] at first
    exact first
  · exact fun first => ⟨none, first, rfl⟩

theorem matched_refuses : matched request selectors = .ok false ↔ k.Refuses compile urlPrefix request := by
  rw [matched_decides compile request urlPrefix k selectors made, HandlerElement.Refuses]
  constructor
  · rintro ⟨found, first, some⟩
    cases found with
    | none => cases some
    | some pattern => exact ⟨pattern, first⟩
  · rintro ⟨pattern, first⟩
    exact ⟨some pattern, first, rfl⟩

end Match

section Loops

variable (request : Request)

theorem findMatching_iff (handlers : List (HandlerDescription η)) (found : Option (HandlerDescription η)) :
    findMatching request handlers = .ok found ↔
      First (fun i => matched request i.selectors = .ok true) (fun i => matched request i.selectors = .ok false)
        handlers found := by
  induction handlers with
  | nil =>
      constructor
      · intro done
        cases done
        exact .nothing
      · intro first
        cases first
        rfl
  | cons i rest ih =>
      rw [findMatching]
      constructor
      · intro done
        obtain ⟨answer, decided, later⟩ := bind_eq_ok _ _ _ done
        cases answer with
        | false => exact .later decided (ih.mp later)
        | true =>
            cases later
            exact .here decided
      · intro first
        cases first with
        | here decided =>
            rw [decided]
            rfl
        | later decided after =>
            rw [decided]
            exact ih.mpr after

theorem collectFilters_iff (descriptions : List (FilterDescription φ)) (v filters : List φ) :
    collectFilters request descriptions v = .ok filters ↔
      ∃ chosen, Every (fun i => matched request i.selectors = .ok true)
        (fun i => matched request i.selectors = .ok false) descriptions chosen ∧
        filters = v ++ chosen.flatMap FilterDescription.handlers := by
  induction descriptions generalizing v with
  | nil =>
      constructor
      · intro done
        cases done
        exact ⟨[], .nil, (List.append_nil _).symm⟩
      · rintro ⟨chosen, every, rfl⟩
        cases every
        exact congrArg Except.ok (List.append_nil v).symm
  | cons i rest ih =>
      rw [collectFilters]
      constructor
      · intro done
        obtain ⟨answer, decided, later⟩ := bind_eq_ok _ _ _ done
        cases answer with
        | false =>
            obtain ⟨chosen, every, same⟩ := (ih v).mp later
            exact ⟨chosen, .left decided every, same⟩
        | true =>
            obtain ⟨chosen, every, rfl⟩ := (ih (v ++ i.handlers)).mp later
            refine ⟨i :: chosen, .taken decided every, ?_⟩
            rw [List.flatMap_cons, List.append_assoc]
      · rintro ⟨chosen, every, rfl⟩
        cases every with
        | left decided after =>
            rw [decided]
            exact (ih v).mpr ⟨chosen, after, rfl⟩
        | taken decided after =>
            rw [decided]
            refine (ih (v ++ i.handlers)).mpr ⟨_, after, ?_⟩
            rw [List.flatMap_cons, List.append_assoc]

end Loops

section Init

variable (compile : Bytes → Except Exn Regex) (find : Bytes → Except Exn (Option (ComponentCasts η φ)))

def Provides {α : Type} (cast : ComponentCasts η φ → Option α) (components : List ConfigValue)
    (handlers : List α) : Prop :=
  List.Forall₂ (fun component handler => ∃ name casts, component = some (.ok name) ∧
    find name = .ok (some casts) ∧ cast casts = some handler) components handlers

structure Describes (defaultPoolName : Bytes) (k : HandlerElement) (description : HandlerDescription η) :
    Prop where
  handlers : Provides find ComponentCasts.handler k.components description.handlers
  poolName : description.poolName = k.pool.asStringOr defaultPoolName
  id : description.id = k.id.asStringOr []

theorem subKeys_elements {α : Type} (key : Bytes) (elements : List α) :
    (subKeys key elements).map Prod.snd = elements := by
  apply List.ext_getElem <;> simp [subKeys]

theorem mapM_subKeys {α β : Type} (key : Bytes) (elements : List α) (call : Bytes × α → Except Exn β)
    (made : List β) (done : (subKeys key elements).mapM call = .ok made) :
    List.Forall₂ (fun element value => ∃ key, call (key, element) = .ok value) elements made := by
  have each := mapM_eq_ok call _ made done
  rw [← subKeys_elements key elements, List.forall₂_map_left_iff]
  exact each.imp (fun item value same => ⟨item.1, same⟩)

theorem provides_unique {α : Type} (cast : ComponentCasts η φ → Option α) :
    Relator.RightUnique (Provides find cast) := by
  apply Relator.RightUnique.forall₂
  rintro component handler other ⟨name, casts, value, found, fits⟩ ⟨name', casts', value', found', fits'⟩
  rw [value, Option.some.injEq, Except.ok.injEq] at value'
  rw [← value', found, Except.ok.injEq, Option.some.injEq] at found'
  rw [← found', fits, Option.some.injEq] at fits'
  exact fits'

theorem findComponents_provides {α : Type} (cast : ComponentCasts η φ → Option α) (interface : String)
    (key : Bytes) (components : List ConfigValue) (handlers : List α)
    (found : (subKeys key components).mapM (findComponent find cast interface) = .ok handlers) :
    Provides find cast components handlers := by
  refine (mapM_subKeys key components _ handlers found).imp ?_
  rintro component handler ⟨key, done⟩
  obtain ⟨name, named, done⟩ := bind_eq_ok _ _ _ done
  obtain ⟨component', present, done⟩ := bind_eq_ok _ _ _ done
  have value : component = some (.ok name) := by
    cases component with
    | none => cases named
    | some value => exact congrArg some named
  cases component' with
  | none => cases done
  | some casts =>
      cases fits : cast casts with
      | none => simp [fits] at done
      | some other =>
          simp only [fits, Except.ok.injEq] at done
          exact ⟨name, casts, value, present, fits.trans (congrArg some done)⟩

theorem initHandler_ok (defaultPoolName urlPrefix key : Bytes) (k : HandlerElement)
    (description : HandlerDescription η)
    (made : initHandler compile find defaultPoolName urlPrefix (key, k) = .ok description) :
    initSelectors compile urlPrefix k = .ok description.selectors ∧
      Describes find defaultPoolName k description := by
  obtain ⟨selectors, initialized, made⟩ := bind_eq_ok _ _ _ made
  obtain ⟨handlers, found, made⟩ := bind_eq_ok _ _ _ made
  cases made
  exact ⟨initialized, findComponents_provides find _ _ _ _ _ found, rfl, rfl⟩

theorem initFilter_ok (urlPrefix key : Bytes) (k : HandlerElement) (description : FilterDescription φ)
    (made : initFilter compile find urlPrefix (key, k) = .ok description) :
    initSelectors compile urlPrefix k = .ok description.selectors ∧
      Provides find ComponentCasts.filter k.components description.handlers := by
  obtain ⟨selectors, initialized, made⟩ := bind_eq_ok _ _ _ made
  obtain ⟨handlers, found, made⟩ := bind_eq_ok _ _ _ made
  cases made
  exact ⟨initialized, findComponents_provides find _ _ _ _ _ found⟩

structure MadeOf (config : HandlersConfig) (set : HandlerSet η φ) : Prop where
  handlers : List.Forall₂ (fun k description =>
    initSelectors compile (config.urlPrefix.asStringOr []) k = .ok description.selectors ∧
      Describes find set.defaultPoolName k description) config.inOrder set.handlers
  filters : List.Forall₂ (fun k description =>
    initSelectors compile (config.urlPrefix.asStringOr []) k = .ok description.selectors ∧
      Provides find ComponentCasts.filter k.components description.handlers) config.filters set.filters
  defaultPool : set.defaultPoolName = config.defaultPool.asStringOr []

theorem init_ok (config : HandlersConfig) (set : HandlerSet η φ) (made : init compile find config = .ok set) :
    MadeOf compile find config set := by
  obtain ⟨withUrl, first, made⟩ := bind_eq_ok _ _ _ made
  obtain ⟨others, second, made⟩ := bind_eq_ok _ _ _ made
  obtain ⟨filters, third, made⟩ := bind_eq_ok _ _ _ made
  cases made
  refine ⟨List.rel_append ?_ ?_, ?_, rfl⟩
  · exact (mapM_subKeys _ _ _ _ first).imp
      (fun k description ⟨key, same⟩ => initHandler_ok compile find _ _ key k description same)
  · exact (mapM_subKeys _ _ _ _ second).imp
      (fun k description ⟨key, same⟩ => initHandler_ok compile find _ _ key k description same)
  · exact (mapM_subKeys _ _ _ _ third).imp
      (fun k description ⟨key, same⟩ => initFilter_ok compile find _ key k description same)

section Find

variable (config : HandlersConfig) (set : HandlerSet η φ) (made : init compile find config = .ok set)
  (request : Request)

theorem along_selectors {δ : Type} (selectors : δ → List RequestFilter) (urlPrefix : Bytes)
    (describes : HandlerElement → δ → Prop) :
    Along (fun k description => initSelectors compile urlPrefix k = .ok (selectors description) ∧
        describes k description)
      (HandlerElement.Takes compile urlPrefix request) (HandlerElement.Refuses compile urlPrefix request)
      (fun i => matched request (selectors i) = .ok true) (fun i => matched request (selectors i) = .ok false) :=
  ⟨fun k _ pair => (matched_takes compile request urlPrefix k _ pair.1).symm,
    fun k _ pair => (matched_refuses compile request urlPrefix k _ pair.1).symm⟩

include made

/-- The handler of a request is that of the first element all of whose patterns match, elements
with a URL first; there is none exactly if each of them has a pattern that does not match. -/
theorem handler_is_first_match :
    (∀ found, set.findURIHandler request = .ok found →
      ∃ element, First (HandlerElement.Takes compile (config.urlPrefix.asStringOr []) request)
          (HandlerElement.Refuses compile (config.urlPrefix.asStringOr []) request) config.inOrder element ∧
        Option.Rel (Describes find (config.defaultPool.asStringOr [])) element found) ∧
      ∀ element, First (HandlerElement.Takes compile (config.urlPrefix.asStringOr []) request)
          (HandlerElement.Refuses compile (config.urlPrefix.asStringOr []) request) config.inOrder element →
        ∃ found, set.findURIHandler request = .ok found ∧
          Option.Rel (Describes find (config.defaultPool.asStringOr [])) element found := by
  obtain ⟨handlers, -, defaultPool⟩ := init_ok compile find config set made
  have along := along_selectors compile request HandlerDescription.selectors (config.urlPrefix.asStringOr [])
    (Describes find set.defaultPoolName : HandlerElement → HandlerDescription η → Prop)
  rw [← defaultPool]
  constructor
  · intro found done
    obtain ⟨element, same, first⟩ :=
      ((findMatching_iff request set.handlers found).mp done).transfer along.flip handlers.flip
    refine ⟨element, first, ?_⟩
    cases same with
    | some pair => exact .some pair.2
    | none => exact .none
  · intro element first
    obtain ⟨found, same, first⟩ := first.transfer along handlers
    refine ⟨found, (findMatching_iff request set.handlers found).mpr first, ?_⟩
    cases same with
    | some pair => exact .some pair.2
    | none => exact .none

/-- The filters of a request are those of all elements whose patterns match, in their order. -/
theorem filters_are_all_matches (filters : List φ) :
    set.findURIFilters request [] = .ok filters ↔
      ∃ elements parts, Every (HandlerElement.Takes compile (config.urlPrefix.asStringOr []) request)
          (HandlerElement.Refuses compile (config.urlPrefix.asStringOr []) request) config.filters elements ∧
        List.Forall₂ (Provides find ComponentCasts.filter) (elements.map HandlerElement.components) parts ∧
        filters = parts.flatten := by
  obtain ⟨-, described, -⟩ := init_ok compile find config set made
  have along := along_selectors compile request FilterDescription.selectors (config.urlPrefix.asStringOr [])
    (fun k description => Provides find ComponentCasts.filter k.components description.handlers)
  rw [findURIFilters, collectFilters_iff]
  constructor
  · rintro ⟨chosen, every, rfl⟩
    obtain ⟨elements, pairs, every⟩ := every.transfer along.flip described.flip
    refine ⟨elements, chosen.map FilterDescription.handlers, every, ?_, ?_⟩
    · rw [List.forall₂_map_left_iff, List.forall₂_map_right_iff]
      exact pairs.flip.imp (fun _ _ pair => pair.2)
    · rw [List.nil_append, List.flatMap_def]
  · rintro ⟨elements, parts, every, provided, rfl⟩
    obtain ⟨chosen, pairs, every⟩ := every.transfer along described
    refine ⟨chosen, every, ?_⟩
    have again : List.Forall₂ (Provides find ComponentCasts.filter) (elements.map HandlerElement.components)
        (chosen.map FilterDescription.handlers) := by
      rw [List.forall₂_map_left_iff, List.forall₂_map_right_iff]
      exact pairs.imp (fun _ _ pair => pair.2)
    have same := (provides_unique find ComponentCasts.filter).forall₂ provided again
    rw [same, List.nil_append, List.flatMap_def]

end Find

end Init

section Sample

def literalRegex (text : Bytes) : Except Exn Regex := .ok (fun value => value == text)

def sampleCasts (name : Bytes) : Except Exn (Option (ComponentCasts Bytes Bytes)) := .ok (some ⟨some name, some name⟩)

def sampleElement (url : Option String) (components : List String) : HandlerElement :=
  ⟨none, none, url.map (fun text => .ok (ascii text)), none, none, none, none, [],
    components.map (fun name => some (.ok (ascii name)))⟩

def sampleConfig : HandlersConfig where
  urlPrefix := some (.ok (ascii "/app"))
  defaultPool := some (.ok (ascii "pool"))
  handlers := [sampleElement none ["other"], sampleElement (some "/a") ["first"], sampleElement (some "/b") ["second"]]
  filters := [sampleElement none ["log"], sampleElement (some "/b") ["login"], sampleElement (some "/a") ["count"]]

def sampleVisit (path : String) : Request :=
  { Request.fresh with vars := OrderedMap.empty.insert (ascii "SCRIPT_NAME") (ascii path) }

theorem handler_is_first_match_sample : ∃ set, init literalRegex sampleCasts sampleConfig = .ok set ∧
    ∃ element found, First (HandlerElement.Takes literalRegex (ascii "/app") (sampleVisit "/app/b"))
        (HandlerElement.Refuses literalRegex (ascii "/app") (sampleVisit "/app/b")) sampleConfig.inOrder element ∧
      Option.Rel (Describes sampleCasts (ascii "pool")) element (some found) ∧
      found.handlers = [ascii "second"] := by
  refine ⟨_, rfl, ?_⟩
  obtain ⟨element, first, described⟩ := (handler_is_first_match literalRegex sampleCasts sampleConfig _ rfl
    (sampleVisit "/app/b")).1 _ rfl
  exact ⟨element, _, first, described, rfl⟩

theorem filters_are_all_matches_sample : ∃ set, init literalRegex sampleCasts sampleConfig = .ok set ∧
    ∃ elements parts, Every (HandlerElement.Takes literalRegex (ascii "/app") (sampleVisit "/a"))
        (HandlerElement.Refuses literalRegex (ascii "/app") (sampleVisit "/a")) sampleConfig.filters elements ∧
      List.Forall₂ (Provides sampleCasts ComponentCasts.filter) (elements.map HandlerElement.components) parts ∧
      [ascii "log", ascii "count"] = parts.flatten :=
  ⟨_, rfl, (filters_are_all_matches literalRegex sampleCasts sampleConfig _ rfl (sampleVisit "/a") _).mp rfl⟩

end Sample

end HandlerSet

end FastcgiContainer
