import FastcgiContainer.PageReader

/-! Where the sections of a server page go. A page is divided at its tags; each section
should be copied to one place, and is, unless it has the opening tag of another inside. -/

namespace FastcgiContainer.PageCompiler

open Word (Bytes)

def tokens : Nat → Bytes → List Bytes
  | 0, _ => []
  | fuel + 1, pageStream =>
      if (nextToken pageStream).1.isEmpty then []
      else (nextToken pageStream).1 :: tokens fuel (nextToken pageStream).2

theorem tagToken_eq (istr : Bytes) :
    (tagToken istr).1 ≠ [] ∧ (tagToken istr).1 ++ (tagToken istr).2 = ascii "<%" ++ istr := by
  cases istr with
  | nil => exact ⟨by decide, rfl⟩
  | cons ch rest =>
      simp only [tagToken]
      split
      · simp [ascii]
      · split
        · split
          · next double =>
              cases rest with
              | nil => cases double
              | cons second rest =>
                  obtain rfl : second = ch := by simpa using double
                  simp [ascii]
          · simp [ascii]
        · simp [ascii]

theorem nextToken_eq (pageStream : Bytes) :
    (nextToken pageStream).1 ++ (nextToken pageStream).2 = pageStream ∧
      (pageStream ≠ [] → (nextToken pageStream).1 ≠ []) := by
  cases pageStream with
  | nil => exact ⟨rfl, fun wrong => absurd rfl wrong⟩
  | cons ch rest =>
      simp only [nextToken]
      split
      · next tag =>
          obtain ⟨rfl, second⟩ := tag
          cases rest with
          | nil => cases second
          | cons percent rest =>
              obtain rfl : percent = 37 := by simpa using second
              exact ⟨(tagToken_eq rest).2, fun _ => (tagToken_eq rest).1⟩
      · split
        · next tag =>
            obtain ⟨rfl, second⟩ := tag
            cases rest with
            | nil => cases second
            | cons bracket rest =>
                obtain rfl : bracket = 62 := by simpa using second
                exact ⟨rfl, fun _ => by simp [ascii]⟩
        · exact ⟨rfl, fun _ => by simp⟩

theorem tokens_flatten (fuel : Nat) (pageStream : Bytes) (enough : pageStream.length ≤ fuel) :
    (tokens fuel pageStream).flatten = pageStream := by
  induction fuel generalizing pageStream with
  | zero => exact (List.eq_nil_of_length_eq_zero (Nat.le_zero.mp enough)).symm
  | succ fuel ih =>
      obtain ⟨whole, taken⟩ := nextToken_eq pageStream
      simp only [tokens]
      split
      · next none =>
          by_contra filled
          exact taken (Ne.symm filled) (List.isEmpty_iff.mp none)
      · next some =>
          have positive := List.length_pos_of_ne_nil (List.isEmpty_eq_false_iff.mp (by simpa using some))
          have length := congrArg List.length whole
          rw [List.length_append] at length
          rw [List.flatten_cons, ih _ (by omega), whole]

section Loop

variable (include_ : Bytes → Page → Except PageError Page) (location : Location)

theorem loop_eq (fuel : Nat) (pageStream : Bytes) (reader : Reader) :
    Reader.loop include_ location fuel pageStream reader =
      (tokens fuel pageStream).foldlM (Reader.step include_ location) reader := by
  induction fuel generalizing pageStream reader with
  | zero => rfl
  | succ fuel ih =>
      simp only [Reader.loop, tokens]
      split
      · rfl
      · rw [List.foldlM_cons]
        cases reader.step include_ location (nextToken pageStream).1 with
        | error exn => rfl
        | ok next => exact ih _ next

end Loop

/-- A token of the markup, or a section with its opening tag and the tokens up to its closing
tag. -/
inductive Piece where
  | markup (token : Bytes)
  | section_ (tag : Bytes) (state : ParsingState) (inner : List Bytes)
  deriving DecidableEq, Repr

/-- Divides tokens into pieces, if every section is closed. The first argument is the section
that is open, with the tokens that were read of it. -/
def divide : Option (Bytes × ParsingState × List Bytes) → List Bytes → Option (List Piece)
  | none, [] => some []
  | some _, [] => none
  | none, token :: rest =>
      match opens token with
      | some state => divide (some (token, state, [])) rest
      | none => (divide none rest).map (fun pieces => .markup token :: pieces)
  | some (tag, state, inner), token :: rest =>
      if token = closingTag then (divide none rest).map (fun pieces => .section_ tag state inner :: pieces)
      else divide (some (tag, state, inner ++ [token])) rest

namespace Piece

def tokens : Piece → List Bytes
  | markup token => [token]
  | section_ tag _ inner => tag :: (inner ++ [closingTag])

def Divided : Piece → Prop
  | markup token => opens token = none
  | section_ tag state inner => opens tag = some state ∧ closingTag ∉ inner

def textOf (wanted : ParsingState) : Piece → Bytes
  | markup _ => []
  | section_ _ state inner => if state = wanted then inner.flatten else []

def inHandler : Piece → Bytes
  | markup token => Reader.markupText token
  | section_ _ .block inner => markupEnd ++ inner.flatten ++ markupBegin
  | section_ _ .expr inner => markupEnd ++ exprBegin ++ inner.flatten ++ exprEnd ++ markupBegin
  | section_ _ _ _ => markupEnd ++ markupBegin

def directive : Piece → List Bytes
  | section_ _ .attr inner => [inner.flatten]
  | _ => []

/-- The tokens of a section that look like the opening tag of another, where the section is
not for the handler. -/
def strays : Piece → List Bytes
  | markup _ => []
  | section_ _ .block _ => []
  | section_ _ .expr _ => []
  | section_ _ _ inner => inner.filter (fun token => (opens token).isSome)

end Piece

theorem divide_tokens (list : List Bytes) (pending : Option (Bytes × ParsingState × List Bytes))
    (pieces : List Piece) (divided : divide pending list = some pieces)
    (valid : ∀ tag state inner, pending = some (tag, state, inner) →
      opens tag = some state ∧ closingTag ∉ inner) :
    (match pending with
      | none => list
      | some (tag, _, inner) => tag :: (inner ++ list)) = pieces.flatMap Piece.tokens ∧
      ∀ piece ∈ pieces, piece.Divided := by
  induction list generalizing pending pieces with
  | nil =>
      cases pending with
      | none =>
          cases divided
          exact ⟨rfl, by simp⟩
      | some current => cases divided
  | cons token rest ih =>
      cases pending with
      | none =>
          simp only [divide] at divided
          cases tag : opens token with
          | some state =>
              rw [tag] at divided
              have inside := ih (some (token, state, [])) pieces divided (by
                rintro tag' state' inner' same
                cases same
                exact ⟨tag, by simp⟩)
              exact inside
          | none =>
              rw [tag] at divided
              obtain ⟨others, later, rfl⟩ := Option.map_eq_some_iff.mp divided
              obtain ⟨same, fine⟩ := ih none others later (by simp)
              refine ⟨?_, ?_⟩
              · rw [List.flatMap_cons, ← same]
                rfl
              · intro piece member
                rcases List.mem_cons.mp member with rfl | inside
                · exact tag
                · exact fine piece inside
      | some current =>
          obtain ⟨tag, state, inner⟩ := current
          obtain ⟨opened, unclosed⟩ := valid tag state inner rfl
          simp only [divide] at divided
          split at divided
          · next closes =>
              subst closes
              obtain ⟨others, later, rfl⟩ := Option.map_eq_some_iff.mp divided
              obtain ⟨same, fine⟩ := ih none others later (by simp)
              refine ⟨?_, ?_⟩
              · rw [List.flatMap_cons, ← same]
                simp [Piece.tokens]
              · intro piece member
                rcases List.mem_cons.mp member with rfl | inside
                · exact ⟨opened, unclosed⟩
                · exact fine piece inside
          · next goesOn =>
              have inside := ih (some (tag, state, inner ++ [token])) pieces divided (by
                rintro tag' state' inner' same
                cases same
                refine ⟨opened, ?_⟩
                rw [List.mem_append, List.mem_singleton, not_or]
                exact ⟨unclosed, Ne.symm goesOn⟩)
              simpa using inside

theorem opens_listed {token : Bytes} {state : ParsingState} (tag : opens token = some state) :
    (token, state) ∈ openingTags := by
  obtain ⟨entry, found, rfl⟩ := Option.map_eq_some_iff.mp tag
  have same := List.find?_some found
  rw [← beq_iff_eq.mp same]
  exact List.mem_of_find?_eq_some found

theorem opens_state {token : Bytes} {state : ParsingState} (tag : opens token = some state) :
    state ≠ .markup ∧ state ≠ .implDecl ∧ state ≠ .hdrDecl := by
  have all : ∀ entry ∈ openingTags, entry.2 ≠ .markup ∧ entry.2 ≠ .implDecl ∧ entry.2 ≠ .hdrDecl := by
    decide +kernel
  exact all (token, state) (opens_listed tag)

theorem opens_ne_nil {token : Bytes} (tag : (opens token).isSome = true) : token ≠ [] := by
  obtain ⟨state, tag⟩ := Option.isSome_iff_exists.mp tag
  have all : ∀ entry ∈ openingTags, entry.1 ≠ [] := by decide +kernel
  exact all (token, state) (opens_listed tag)

theorem opens_closingTag : opens closingTag = none := by decide +kernel

section Steps

variable {include_ : Bytes → Page → Except PageError Page} {location : Location} {reader next : Reader}
  {token : Bytes}

theorem step_tag (state : ParsingState) (tag : opens token = some state) (outside : reader.state = .markup) :
    reader.step include_ location token = .ok (reader.enter state) := by
  simp only [Reader.step, tag, outside, if_true]

theorem step_stray (tag : (opens token).isSome = true) (inside : reader.state ≠ .markup) :
    reader.step include_ location token = .ok (reader.write token) := by
  obtain ⟨state, tag⟩ := Option.isSome_iff_exists.mp tag
  simp only [Reader.step, tag, inside, if_false]

theorem step_text (plain : opens token = none) (goesOn : token ≠ closingTag) :
    reader.step include_ location token = .ok (reader.text token) := by
  simp only [Reader.step, plain, goesOn, if_false]

theorem step_close : reader.step include_ location closingTag = reader.close include_ location := by
  simp only [Reader.step, opens_closingTag, if_true]

theorem enter_state (state : ParsingState) : (reader.enter state).state = state := by
  cases state <;> rfl

theorem text_state : (reader.text token).state = reader.state := by
  unfold Reader.text
  cases place : reader.state <;> simp [Reader.write, place]

theorem close_state (done : reader.close include_ location = .ok next) : next.state = .markup := by
  unfold Reader.close at done
  cases place : reader.state with
  | attr =>
      rw [place] at done
      cases parsed : parseAttributes location (handleAttribute include_) reader.attrs reader.page with
      | error exn =>
          simp only [parsed] at done
          cases done
      | ok page =>
          simp only [parsed] at done
          cases done
          rfl
  | markup =>
      rw [place] at done
      cases done
      exact place
  | _ =>
      rw [place] at done
      cases done
      rfl

theorem step_outside {middle : Reader} (plain : opens token = none) (outside : reader.state = .markup)
    (stepped : reader.step include_ location token = .ok middle) : middle.state = .markup := by
  by_cases closes : token = closingTag
  · rw [closes, step_close] at stepped
    exact close_state stepped
  · rw [step_text plain closes] at stepped
    cases stepped
    exact text_state.trans outside

theorem step_inside {middle : Reader} (goesOn : token ≠ closingTag) (inside : reader.state ≠ .markup)
    (stepped : reader.step include_ location token = .ok middle) : middle.state = reader.state := by
  cases stray : opens token with
  | some other =>
      rw [step_stray (by rw [stray]; rfl) inside] at stepped
      cases stepped
      rfl
  | none =>
      rw [step_text stray goesOn] at stepped
      cases stepped
      exact text_state

theorem foldlM_ok {α β : Type} {act : β → α → Except PageError β} {head : α} {rest : List α}
    {first last : β} (done : (head :: rest).foldlM act first = .ok last) :
    ∃ middle, act first head = .ok middle ∧ rest.foldlM act middle = .ok last := by
  rw [List.foldlM_cons] at done
  exact bind_eq_ok _ _ _ done

theorem divide_exists (list : List Bytes) (pending : Option (Bytes × ParsingState × List Bytes))
    (reader : Reader) (done : list.foldlM (Reader.step include_ location) reader = .ok next)
    (ended : next.state = .markup)
    (place : match pending with
      | none => reader.state = .markup
      | some (_, state, _) => reader.state = state ∧ state ≠ .markup) :
    ∃ pieces, divide pending list = some pieces := by
  induction list generalizing reader pending with
  | nil =>
      cases done
      cases pending with
      | none => exact ⟨[], rfl⟩
      | some current =>
          rw [ended] at place
          exact absurd place.1.symm place.2
  | cons token rest ih =>
      obtain ⟨middle, stepped, later⟩ := foldlM_ok done
      cases pending with
      | none =>
          simp only [divide]
          cases tag : opens token with
          | some state =>
              rw [step_tag state tag place] at stepped
              cases stepped
              exact ih (some (token, state, [])) _ later ⟨enter_state state, (opens_state tag).1⟩
          | none =>
              obtain ⟨pieces, divided⟩ := ih none middle later (step_outside tag place stepped)
              exact ⟨.markup token :: pieces, by simp [divided]⟩
      | some current =>
          obtain ⟨tag, state, inner⟩ := current
          simp only [divide]
          split
          · next closes =>
              rw [closes, step_close] at stepped
              obtain ⟨pieces, divided⟩ := ih none middle later (close_state stepped)
              exact ⟨.section_ tag state inner :: pieces, by simp [divided]⟩
          · next goesOn =>
              have inside : reader.state ≠ .markup := by
                rw [place.1]
                exact place.2
              exact ih (some (tag, state, inner ++ [token])) middle later
                ⟨(step_inside goesOn inside stepped).trans place.1, place.2⟩

end Steps

def collect (name value : Bytes) (list : List (Bytes × Bytes)) : Except PageError (List (Bytes × Bytes)) :=
  .ok (list ++ [(name, value)])

/-- The attributes of a directive, if its syntax is right. -/
def attributesIn (location : Location) (attrs : Bytes) : List (Bytes × Bytes) :=
  match parseAttributes location collect attrs [] with
  | .ok list => list
  | .error _ => []

def isInclude (name : Bytes) : Bool :=
  name == ascii "include.page" || name == ascii "include.path" || name == ascii "include.component"

def headerDecl (entry : Bytes × Bytes) : Bytes :=
  if entry.1 = ascii "header.include" then ascii "#include \"" ++ entry.2 ++ ascii "\"\n"
  else if entry.1 = ascii "header.sinclude" then ascii "#include <" ++ entry.2 ++ ascii ">\n"
  else []

def implDecl (entry : Bytes × Bytes) : Bytes :=
  if entry.1 = ascii "impl.include" then ascii "#include \"" ++ entry.2 ++ ascii "\"\n"
  else if entry.1 = ascii "impl.sinclude" then ascii "#include <" ++ entry.2 ++ ascii ">\n"
  else []

def declared (location : Location) (decl : Bytes × Bytes → Bytes) (attrs : Bytes) : Bytes :=
  (attributesIn location attrs).flatMap decl

section Attributes

variable {σ : Type} {handle : Bytes → Bytes → σ → Except PageError σ} {location : Location} {page result : σ}

theorem attributeLoop_collect (basename : Bytes) (fuel : Nat) (istr : Bytes)
    (done : attributeLoop location handle basename fuel istr page = .ok result) :
    ∃ added, (∀ list, attributeLoop location collect basename fuel istr list = .ok (list ++ added)) ∧
      added.foldlM (fun page entry => handle entry.1 entry.2 page) page = .ok result := by
  induction fuel generalizing istr page with
  | zero =>
      cases done
      exact ⟨[], fun list => by simp [attributeLoop], rfl⟩
  | succ fuel ih =>
      simp only [attributeLoop] at done ⊢
      split at done
      · next none =>
          cases done
          exact ⟨[], fun list => by simp [none], rfl⟩
      · next some =>
          split at done
          · next tail equals =>
              split at done
              · next quote text quoted =>
                  split at done
                  · next known =>
                      split at done
                      · cases done
                      · next first after closed =>
                          split at done
                          · cases done
                          · next middle handled =>
                              obtain ⟨added, collected, folded⟩ := ih _ done
                              refine ⟨(basename ++ ascii "." ++ istr.takeWhile isalnum,
                                text.takeWhile (fun symbol => symbol != quote)) :: added, ?_, ?_⟩
                              · intro list
                                simp only [some, known, collect, collected, if_true, Bool.false_eq_true, if_false]
                                rw [List.append_assoc]
                                rfl
                              · rw [List.foldlM_cons, handled]
                                exact folded
                  · cases done
              · cases done
          · cases done

theorem parseAttributes_collect (attrs : Bytes)
    (done : parseAttributes location handle attrs page = .ok result) :
    (attributesIn location attrs).foldlM (fun page entry => handle entry.1 entry.2 page) page =
      .ok result := by
  obtain ⟨added, collected, folded⟩ := attributeLoop_collect _ _ _ done
  have listed : attributesIn location attrs = added := by
    simp only [attributesIn, parseAttributes, collected, List.nil_append]
  rw [listed]
  exact folded

end Attributes

section Declarations

variable {include_ : Bytes → Page → Except PageError Page} {page next : Page}

/-- What attributes do to a page when they include nothing. -/
structure Declares (page next : Page) (list : List (Bytes × Bytes)) : Prop where
  handler : next.handler = page.handler
  preHandler : next.preHandler = page.preHandler
  functions : next.functions = page.functions
  methods : next.methods = page.methods
  headerDecls : next.headerDecls = page.headerDecls ++ list.flatMap headerDecl
  implDecls : next.implDecls = page.implDecls ++ list.flatMap implDecl

theorem handleAttribute_declares (name value : Bytes) (plain : isInclude name = false)
    (done : handleAttribute include_ name value page = .ok next) : Declares page next [(name, value)] := by
  simp only [isInclude, Bool.or_eq_false_iff, beq_eq_false_iff_ne] at plain
  simp only [handleAttribute, plain, if_false] at done
  have single : ∀ decl : Bytes × Bytes → Bytes, [(name, value)].flatMap decl = decl (name, value) := by simp
  split at done
  · next same =>
      cases done
      refine ⟨rfl, rfl, rfl, rfl, ?_, ?_⟩
      · simp [headerDecl, same]
      · rw [single, implDecl, same]
        exact (List.append_nil _).symm
  · next first =>
      split at done
      · next same =>
          cases done
          refine ⟨rfl, rfl, rfl, rfl, ?_, ?_⟩
          · rw [single, headerDecl, same]
            rfl
          · rw [single, implDecl, same]
            exact (List.append_nil _).symm
      · next second =>
          have header : headerDecl (name, value) = [] := by simp only [headerDecl, first, second, if_false]
          split at done
          · next same =>
              cases done
              refine ⟨rfl, rfl, rfl, rfl, ?_, ?_⟩
              · rw [single, header, List.append_nil]
              · rw [single, implDecl, same]
                rfl
          · next third =>
              split at done
              · next same =>
                  cases done
                  refine ⟨rfl, rfl, rfl, rfl, ?_, ?_⟩
                  · rw [single, header, List.append_nil]
                  · rw [single, implDecl, same]
                    rfl
              · next fourth =>
                  cases done
                  refine ⟨rfl, rfl, rfl, rfl, ?_, ?_⟩
                  · rw [single, header, List.append_nil]
                  · rw [single, implDecl]
                    simp only [third, fourth, if_false, List.append_nil]

theorem Declares.trans {middle : Page} {first second : List (Bytes × Bytes)} (left : Declares page middle first)
    (right : Declares middle next second) : Declares page next (first ++ second) := by
  refine ⟨right.handler.trans left.handler, right.preHandler.trans left.preHandler,
    right.functions.trans left.functions, right.methods.trans left.methods, ?_, ?_⟩
  · rw [right.headerDecls, left.headerDecls, List.flatMap_append, List.append_assoc]
  · rw [right.implDecls, left.implDecls, List.flatMap_append, List.append_assoc]

theorem attributes_declare (list : List (Bytes × Bytes)) (plain : ∀ entry ∈ list, isInclude entry.1 = false)
    (done : list.foldlM (fun page entry => handleAttribute include_ entry.1 entry.2 page) page = .ok next) :
    Declares page next list := by
  induction list generalizing page with
  | nil =>
      cases done
      exact ⟨rfl, rfl, rfl, rfl, (List.append_nil _).symm, (List.append_nil _).symm⟩
  | cons entry rest ih =>
      obtain ⟨middle, handled, later⟩ := foldlM_ok done
      have first := handleAttribute_declares entry.1 entry.2 (plain entry List.mem_cons_self) handled
      exact first.trans (ih (fun other member => plain other (List.mem_cons_of_mem entry member)) later)

def Appends (act : Page → Except PageError Page) : Prop :=
  ∀ page next, act page = .ok next → page.handler.length ≤ next.handler.length

theorem handleAttribute_appends (appends : ∀ path, Appends (include_ path)) (name value : Bytes) :
    Appends (handleAttribute include_ name value) := by
  intro page next done
  by_cases plain : isInclude name = false
  · rw [(handleAttribute_declares name value plain done).handler]
  · have includes : isInclude name = true := by simpa using plain
    have known : name = ascii "include.page" ∨ name = ascii "include.path" ∨
        name = ascii "include.component" := by
      simpa only [isInclude, Bool.or_eq_true, beq_iff_eq, or_assoc] using includes
    unfold handleAttribute at done
    split at done
    · exact appends value page next done
    · next other =>
        rcases known.resolve_left other with rfl | rfl
        · cases done
          simp [Page.writeHandler]
        · rw [if_neg (by decide +kernel), if_pos rfl] at done
          cases done
          simp [Page.writeHandler]

theorem attributes_append (appends : ∀ path, Appends (include_ path)) (list : List (Bytes × Bytes))
    (done : list.foldlM (fun page entry => handleAttribute include_ entry.1 entry.2 page) page = .ok next) :
    page.handler.length ≤ next.handler.length := by
  induction list generalizing page with
  | nil =>
      cases done
      exact le_refl _
  | cons entry rest ih =>
      obtain ⟨middle, handled, later⟩ := foldlM_ok done
      exact le_trans (handleAttribute_appends appends entry.1 entry.2 page middle handled) (ih later)

end Declarations

section Sections

variable {include_ : Bytes → Page → Except PageError Page} {location : Location} {reader next : Reader}

theorem text_nil (inside : reader.state ≠ .markup) : reader.text [] = reader := by
  unfold Reader.text
  obtain ⟨state, attrs, page, directives⟩ := reader
  cases state <;> simp_all [Reader.write, Page.writeHandler]

theorem text_append (first second : Bytes) (inside : reader.state ≠ .markup) :
    (reader.text first).text second = reader.text (first ++ second) := by
  obtain ⟨state, attrs, page, directives⟩ := reader
  cases state <;> simp_all [Reader.text, Reader.write, Page.writeHandler]

theorem write_eq_text (token : Bytes) (handled : reader.state = .block ∨ reader.state = .expr) :
    reader.write token = reader.text token := by
  rcases handled with place | place <;> simp [Reader.text, place]

theorem inner_plain (inner : List Bytes) (inside : reader.state ≠ .markup) (unclosed : closingTag ∉ inner)
    (plain : (reader.state = .block ∨ reader.state = .expr) ∨ ∀ token ∈ inner, opens token = none) :
    inner.foldlM (Reader.step include_ location) reader = .ok (reader.text inner.flatten) := by
  induction inner generalizing reader with
  | nil => rw [List.flatten_nil, text_nil inside]; rfl
  | cons token rest ih =>
      rw [List.mem_cons, not_or] at unclosed
      have taken : reader.step include_ location token = .ok (reader.text token) := by
        cases tag : opens token with
        | none => exact step_text tag (Ne.symm unclosed.1)
        | some state =>
            rw [step_stray (by rw [tag]; rfl) inside]
            rcases plain with handled | none
            · rw [write_eq_text token handled]
            · rw [none token List.mem_cons_self] at tag
              cases tag
      have same : (reader.text token).state = reader.state := text_state
      rw [List.foldlM_cons, taken]
      refine (ih (by rw [same]; exact inside) unclosed.2 ?_).trans ?_
      · rw [same]
        exact plain.imp_right (fun none other member => none other (List.mem_cons_of_mem token member))
      · rw [text_append token rest.flatten inside]
        rfl

theorem inner_strays (inner : List Bytes) (inside : reader.state ≠ .markup)
    (elsewhere : reader.state ≠ .block ∧ reader.state ≠ .expr) (unclosed : closingTag ∉ inner) :
    ∃ next, inner.foldlM (Reader.step include_ location) reader = .ok next ∧ next.state = reader.state ∧
      next.page.handler =
        reader.page.handler ++ (inner.filter (fun token => (opens token).isSome)).flatten := by
  induction inner generalizing reader with
  | nil => exact ⟨reader, rfl, rfl, by simp⟩
  | cons token rest ih =>
      rw [List.mem_cons, not_or] at unclosed
      rw [List.foldlM_cons]
      cases tag : (opens token).isSome with
      | true =>
          rw [step_stray tag inside]
          obtain ⟨last, done, same, written⟩ := @ih (reader.write token) inside elsewhere unclosed.2
          refine ⟨last, done, same, ?_⟩
          rw [written, List.filter_cons_of_pos (by simpa using tag), List.flatten_cons, ← List.append_assoc]
          rfl
      | false =>
          have none : opens token = none := by simpa using tag
          have quiet : (reader.text token).page.handler = reader.page.handler := by
            obtain ⟨state, attrs, page, directives⟩ := reader
            cases state <;> simp_all [Reader.text]
          have place : (reader.text token).state = reader.state := text_state
          rw [step_text none (Ne.symm unclosed.1)]
          obtain ⟨last, done, same, written⟩ := @ih (reader.text token) (by rw [place]; exact inside)
            (by rw [place]; exact elsewhere) unclosed.2
          refine ⟨last, done, same.trans place, ?_⟩
          rw [written, quiet, List.filter_cons_of_neg (by simpa using tag)]

theorem foldlM_split {first second : List Bytes}
    (done : (first ++ second).foldlM (Reader.step include_ location) reader = .ok next) :
    ∃ middle, first.foldlM (Reader.step include_ location) reader = .ok middle ∧
      second.foldlM (Reader.step include_ location) middle = .ok next := by
  rw [List.foldlM_append] at done
  exact bind_eq_ok _ _ _ done

theorem section_close (tag : Bytes) (state : ParsingState) (inner : List Bytes) {middle : Reader}
    (outside : reader.state = .markup) (opened : opens tag = some state)
    (ran : inner.foldlM (Reader.step include_ location) (reader.enter state) = .ok middle)
    (done : (Piece.section_ tag state inner).tokens.foldlM (Reader.step include_ location) reader = .ok next) :
    middle.close include_ location = .ok next := by
  obtain ⟨entered, stepped, later⟩ := foldlM_ok done
  rw [step_tag state opened outside] at stepped
  cases stepped
  obtain ⟨other, again, later⟩ := foldlM_split later
  obtain rfl := Except.ok.inj (ran.symm.trans again)
  obtain ⟨last, closed, none⟩ := foldlM_ok later
  cases none
  rwa [step_close] at closed

theorem close_attr {middle : Reader} (place : middle.state = .attr)
    (closed : middle.close include_ location = .ok next) :
    ∃ page, (attributesIn location middle.attrs).foldlM
        (fun page entry => handleAttribute include_ entry.1 entry.2 page) middle.page = .ok page ∧
      next = ⟨.markup, [], page.writeHandler markupBegin, middle.directives ++ [middle.attrs]⟩ := by
  unfold Reader.close at closed
  rw [place] at closed
  simp only at closed
  cases parsed : parseAttributes location (handleAttribute include_) middle.attrs middle.page with
  | error exn =>
      rw [parsed] at closed
      cases closed
  | ok page =>
      rw [parsed] at closed
      cases closed
      exact ⟨page, parseAttributes_collect middle.attrs parsed, rfl⟩

def afterAttributes (reader : Reader) (page : Page) : Except PageError Reader :=
  .ok { state := .markup, attrs := [], page := page.writeHandler markupBegin
        directives := reader.directives ++ [reader.attrs] }

theorem step_attributes {reader : Reader} (inside : reader.state = .attr) :
    reader.step include_ location closingTag =
      parseAttributes location (handleAttribute include_) reader.attrs reader.page >>= afterAttributes reader := by
  rw [step_close, Reader.close, inside]
  cases parseAttributes location (handleAttribute include_) reader.attrs reader.page with
  | error exn => rfl
  | ok page => rfl

theorem directive_run {reader : Reader} {tag : Bytes} {inner : List Bytes} (opened : opens tag = some .attr)
    (outside : reader.state = .markup) (unclosed : closingTag ∉ inner) (plain : ∀ token ∈ inner, opens token = none) :
    (tag :: (inner ++ [closingTag])).foldlM (Reader.step include_ location) reader =
      parseAttributes location (handleAttribute include_) inner.flatten (reader.enter .attr).page >>=
        afterAttributes ((reader.enter .attr).text inner.flatten) := by
  have inside : (reader.enter .attr).state = .attr := enter_state .attr
  have taken := @inner_plain include_ location (reader.enter .attr) inner (by rw [inside]; decide) unclosed
    (Or.inr plain)
  have still : ((reader.enter .attr).text inner.flatten).state = .attr := text_state.trans inside
  have attrs : ((reader.enter .attr).text inner.flatten).attrs = inner.flatten := by
    rw [Reader.text, inside]
    rfl
  have page : ((reader.enter .attr).text inner.flatten).page = (reader.enter .attr).page := by
    rw [Reader.text, inside]
  rw [List.foldlM_cons, step_tag .attr opened outside, ok_bind, List.foldlM_append, taken, ok_bind,
    List.foldlM_cons, step_attributes still, attrs, page]
  cases parseAttributes location (handleAttribute include_) inner.flatten (reader.enter .attr).page with
  | error exn => rfl
  | ok next => rfl

/-- What the reader adds to the streams of a page for some pieces, if every section goes to
its own place. -/
structure Adds (location : Location) (reader next : Reader) (pieces : List Piece) : Prop where
  handler : next.page.handler = reader.page.handler ++ pieces.flatMap Piece.inHandler
  preHandler : next.page.preHandler = reader.page.preHandler ++ pieces.flatMap (Piece.textOf .preHandler)
  functions : next.page.functions = reader.page.functions ++ pieces.flatMap (Piece.textOf .functions)
  methods : next.page.methods = reader.page.methods ++ pieces.flatMap (Piece.textOf .methods)
  directives : next.directives = reader.directives ++ pieces.flatMap Piece.directive
  headerDecls : next.page.headerDecls =
    reader.page.headerDecls ++ (pieces.flatMap Piece.directive).flatMap (declared location headerDecl)
  implDecls : next.page.implDecls =
    reader.page.implDecls ++ (pieces.flatMap Piece.directive).flatMap (declared location implDecl)

theorem markup_adds (token : Bytes) (outside : reader.state = .markup) (plain : opens token = none)
    (done : reader.step include_ location token = .ok next) :
    next.state = .markup ∧ Adds location reader next [.markup token] := by
  have written : next = reader.write (Reader.markupText token) := by
    by_cases closes : token = closingTag
    · have same : Reader.markupText closingTag = closingTag := by decide +kernel
      rw [closes, step_close, Reader.close, outside] at done
      cases done
      rw [closes, same]
    · rw [step_text plain closes, Reader.text, outside] at done
      cases done
      rfl
  subst written
  refine ⟨outside, ?_⟩
  constructor <;> simp [Reader.write, Page.writeHandler, Piece.inHandler, Piece.textOf, Piece.directive]

theorem section_adds (tag : Bytes) (state : ParsingState) (inner : List Bytes) (outside : reader.state = .markup)
    (divided : (Piece.section_ tag state inner).Divided) (plain : (Piece.section_ tag state inner).strays = [])
    (includes : ∀ text ∈ (Piece.section_ tag state inner).directive,
      ∀ entry ∈ attributesIn location text, isInclude entry.1 = false)
    (done : (Piece.section_ tag state inner).tokens.foldlM (Reader.step include_ location) reader = .ok next) :
    next.state = .markup ∧ Adds location reader next [.section_ tag state inner] := by
  obtain ⟨opened, unclosed⟩ := divided
  have real := opens_state opened
  have ran := @inner_plain include_ location (reader.enter state) inner (by rw [enter_state]; exact real.1) unclosed
    (by
      rw [enter_state]
      by_cases handled : state = .block ∨ state = .expr
      · exact Or.inl handled
      · refine Or.inr ?_
        intro token member
        cases known : opens token with
        | none => rfl
        | some other =>
            have stray : token ∈ (Piece.section_ tag state inner).strays := by
              cases state <;> simp_all [Piece.strays]
            rw [plain] at stray
            cases stray)
  have closed := section_close tag state inner outside opened ran done
  refine ⟨close_state closed, ?_⟩
  cases state with
  | attr =>
      obtain ⟨page, handled, rfl⟩ := close_attr (by rw [text_state, enter_state]) closed
      have text : ((reader.enter .attr).text inner.flatten).attrs = inner.flatten := rfl
      rw [text] at handled ⊢
      have declares := attributes_declare _ (includes _ (by simp [Piece.directive])) handled
      constructor
      · simp [Page.writeHandler, declares.handler, Piece.inHandler, Reader.text, Reader.enter, Reader.write]
      · simp [Page.writeHandler, declares.preHandler, Piece.textOf, Reader.text, Reader.enter, Reader.write]
      · simp [Page.writeHandler, declares.functions, Piece.textOf, Reader.text, Reader.enter, Reader.write]
      · simp [Page.writeHandler, declares.methods, Piece.textOf, Reader.text, Reader.enter, Reader.write]
      · simp [Piece.directive, Reader.text, Reader.enter, Reader.write]
      · simp [Page.writeHandler, declares.headerDecls, declared, Piece.directive, Reader.text, Reader.enter,
          Reader.write]
      · simp [Page.writeHandler, declares.implDecls, declared, Piece.directive, Reader.text, Reader.enter,
          Reader.write]
  | markup => exact absurd rfl real.1
  | implDecl => exact absurd rfl real.2.1
  | hdrDecl => exact absurd rfl real.2.2
  | _ =>
      cases closed
      constructor <;> simp [Reader.write, Reader.enter, Reader.text, Page.writeHandler, Piece.inHandler,
        Piece.textOf, Piece.directive]

theorem Adds.nil (location : Location) (reader : Reader) : Adds location reader reader [] := by
  constructor <;> simp

theorem Adds.append {middle : Reader} {first second : List Piece} (left : Adds location reader middle first)
    (right : Adds location middle next second) : Adds location reader next (first ++ second) := by
  constructor
  · rw [right.handler, left.handler, List.flatMap_append, List.append_assoc]
  · rw [right.preHandler, left.preHandler, List.flatMap_append, List.append_assoc]
  · rw [right.functions, left.functions, List.flatMap_append, List.append_assoc]
  · rw [right.methods, left.methods, List.flatMap_append, List.append_assoc]
  · rw [right.directives, left.directives, List.flatMap_append, List.append_assoc]
  · rw [right.headerDecls, left.headerDecls, List.flatMap_append, List.flatMap_append, List.append_assoc]
  · rw [right.implDecls, left.implDecls, List.flatMap_append, List.flatMap_append, List.append_assoc]

def Piece.IncludesNothing (location : Location) (piece : Piece) : Prop :=
  ∀ text ∈ piece.directive, ∀ entry ∈ attributesIn location text, isInclude entry.1 = false

theorem piece_adds (piece : Piece) (outside : reader.state = .markup) (divided : piece.Divided)
    (plain : piece.strays = []) (includes : piece.IncludesNothing location)
    (done : piece.tokens.foldlM (Reader.step include_ location) reader = .ok next) :
    next.state = .markup ∧ Adds location reader next [piece] := by
  cases piece with
  | markup token =>
      obtain ⟨middle, stepped, none⟩ := foldlM_ok done
      cases none
      exact markup_adds token outside divided stepped
  | section_ tag state inner => exact section_adds tag state inner outside divided plain includes done

theorem pieces_add (pieces : List Piece) (outside : reader.state = .markup)
    (divided : ∀ piece ∈ pieces, piece.Divided) (plain : ∀ piece ∈ pieces, piece.strays = [])
    (includes : ∀ piece ∈ pieces, piece.IncludesNothing location)
    (done : (pieces.flatMap Piece.tokens).foldlM (Reader.step include_ location) reader = .ok next) :
    Adds location reader next pieces := by
  induction pieces generalizing reader with
  | nil =>
      cases done
      exact .nil location _
  | cons piece rest ih =>
      rw [List.flatMap_cons] at done
      obtain ⟨middle, first, later⟩ := foldlM_split done
      obtain ⟨place, adds⟩ := piece_adds piece outside (divided piece (by simp)) (plain piece (by simp))
        (includes piece (by simp)) first
      exact adds.append (ih place (fun other member => divided other (List.mem_cons_of_mem piece member))
        (fun other member => plain other (List.mem_cons_of_mem piece member))
        (fun other member => includes other (List.mem_cons_of_mem piece member)) later)

theorem piece_grows (appends : ∀ path, Appends (include_ path)) (piece : Piece) (outside : reader.state = .markup)
    (divided : piece.Divided) (done : piece.tokens.foldlM (Reader.step include_ location) reader = .ok next) :
    next.state = .markup ∧
      reader.page.handler.length + piece.inHandler.length + piece.strays.flatten.length ≤
        next.page.handler.length := by
  by_cases plain : piece.strays = [] ∧ piece.directive = []
  · obtain ⟨place, adds⟩ := piece_adds piece outside divided plain.1
      (fun text member => by simp [plain.2] at member) done
    refine ⟨place, ?_⟩
    rw [adds.handler, plain.1]
    simp
  · cases piece with
    | markup token => exact absurd ⟨rfl, rfl⟩ plain
    | section_ tag state inner =>
        obtain ⟨opened, unclosed⟩ := divided
        have real := opens_state opened
        have elsewhere : state ≠ .block ∧ state ≠ .expr := by
          constructor
          · rintro rfl
            exact plain ⟨rfl, rfl⟩
          · rintro rfl
            exact plain ⟨rfl, rfl⟩
        obtain ⟨middle, ran, place, written⟩ := @inner_strays include_ location (reader.enter state) inner
          (by rw [enter_state]; exact real.1) (by rw [enter_state]; exact elsewhere) unclosed
        rw [enter_state] at place
        have closed := section_close tag state inner outside opened ran done
        refine ⟨close_state closed, ?_⟩
        have entered : (reader.enter state).page.handler = reader.page.handler ++ markupEnd := by
          cases state <;> simp_all [Reader.enter, Reader.write, Page.writeHandler]
        have strays : (Piece.section_ tag state inner).strays =
            inner.filter (fun token => (opens token).isSome) := by
          cases state <;> simp_all [Piece.strays]
        have shown : (Piece.section_ tag state inner).inHandler = markupEnd ++ markupBegin := by
          cases state <;> simp_all [Piece.inHandler]
        have length := congrArg List.length written
        rw [entered] at length
        rw [strays, shown]
        simp only [List.length_append] at length ⊢
        by_cases directive : state = .attr
        · obtain ⟨page, handled, rfl⟩ := close_attr (place.trans directive) closed
          have grown := attributes_append appends _ handled
          simp only [Page.writeHandler, List.length_append]
          omega
        · have ends : next = { middle.write markupBegin with state := .markup } := by
            unfold Reader.close at closed
            cases state <;> simp_all
          rw [ends]
          simp only [Reader.write, Page.writeHandler, List.length_append]
          omega

theorem pieces_grow (appends : ∀ path, Appends (include_ path)) (pieces : List Piece)
    (outside : reader.state = .markup) (divided : ∀ piece ∈ pieces, piece.Divided)
    (done : (pieces.flatMap Piece.tokens).foldlM (Reader.step include_ location) reader = .ok next) :
    next.state = .markup ∧
      reader.page.handler.length + (pieces.flatMap Piece.inHandler).length +
        (pieces.flatMap Piece.strays).flatten.length ≤ next.page.handler.length := by
  induction pieces generalizing reader with
  | nil =>
      cases done
      exact ⟨outside, by simp⟩
  | cons piece rest ih =>
      rw [List.flatMap_cons] at done
      obtain ⟨middle, first, later⟩ := foldlM_split done
      obtain ⟨place, grown⟩ := piece_grows appends piece outside (divided piece (by simp)) first
      obtain ⟨ended, more⟩ := ih place
        (fun other member => divided other (List.mem_cons_of_mem piece member)) later
      refine ⟨ended, ?_⟩
      simp only [List.flatMap_cons, List.flatten_append, List.length_append]
      omega

end Sections

def firstReader (page : Page) : Reader := ⟨.markup, [], page.writeHandler markupBegin, []⟩

theorem parse_accepted {include_ : Bytes → Page → Except PageError Page} {location : Location}
    {pageStream : Bytes} {page : Page} {reader : Reader}
    (accepted : parse include_ location pageStream page = .ok reader) :
    ∃ pieces last, divide none (tokens pageStream.length pageStream) = some pieces ∧
      (pieces.flatMap Piece.tokens).flatten = pageStream ∧ (∀ piece ∈ pieces, piece.Divided) ∧
      (pieces.flatMap Piece.tokens).foldlM (Reader.step include_ location) (firstReader page) = .ok last ∧
      reader = last.write markupEnd := by
  rw [parse, loop_eq] at accepted
  cases ran : (tokens pageStream.length pageStream).foldlM (Reader.step include_ location) (firstReader page) with
  | error exn =>
      simp only [firstReader] at ran
      rw [ran] at accepted
      cases accepted
  | ok last =>
      have read := ran
      simp only [firstReader] at ran
      rw [ran] at accepted
      simp only at accepted
      split at accepted
      · next ended =>
          cases accepted
          obtain ⟨pieces, divided⟩ := divide_exists _ none (firstReader page) read ended rfl
          obtain ⟨same, valid⟩ := divide_tokens _ none pieces divided (by simp)
          have whole := tokens_flatten _ pageStream (le_refl _)
          refine ⟨pieces, last, divided, ?_, valid, ?_, rfl⟩
          · rw [← same]
            exact whole
          · rw [← same]
            exact read
      · cases accepted

theorem parse_appends {include_ : Bytes → Page → Except PageError Page} (appends : ∀ path, Appends (include_ path))
    {location : Location} {pageStream : Bytes} {page : Page} {reader : Reader}
    (accepted : parse include_ location pageStream page = .ok reader) :
    page.handler.length ≤ reader.page.handler.length := by
  obtain ⟨pieces, last, _, _, valid, ran, rfl⟩ := parse_accepted accepted
  obtain ⟨_, grown⟩ := pieces_grow appends pieces rfl valid ran
  have before : (firstReader page).page.handler.length = page.handler.length + markupBegin.length := by
    simp [firstReader, Page.writeHandler]
  simp only [Reader.write, Page.writeHandler, List.length_append]
  omega

theorem includeFile_appends (files : Bytes → Option Bytes) (depth : Nat) (location : Location) (path : Bytes) :
    Appends (includeFile files (parsePage files depth) location path) := by
  induction depth generalizing location path with
  | zero =>
      intro page next done
      simp only [includeFile, parsePage] at done
      split at done <;> cases done
  | succ depth ih =>
      intro page next done
      simp only [includeFile] at done
      split at done
      · cases done
      · split at done
        · cases done
        · next reader parsed =>
            cases done
            have grown := parse_appends (fun path => ih _ path) parsed
            simp only [Page.writeHandler, List.length_append] at grown ⊢
            omega

/-- Every section of a page is at its own place, and nowhere else. -/
structure Separated (location : Location) (pieces : List Piece) (reader : Reader) : Prop where
  handler : reader.page.handler = markupBegin ++ pieces.flatMap Piece.inHandler ++ markupEnd
  preHandler : reader.page.preHandler = pieces.flatMap (Piece.textOf .preHandler)
  functions : reader.page.functions = pieces.flatMap (Piece.textOf .functions)
  methods : reader.page.methods = pieces.flatMap (Piece.textOf .methods)
  directives : reader.directives = pieces.flatMap Piece.directive
  headerDecls : reader.page.headerDecls =
    (pieces.flatMap Piece.directive).flatMap (declared location headerDecl)
  implDecls : reader.page.implDecls =
    (pieces.flatMap Piece.directive).flatMap (declared location implDecl)

/-- A page that is accepted and includes nothing has its sections at their places, exactly if
no section outside of the handler has the opening tag of another inside. -/
theorem sections_separated_iff (files : Bytes → Option Bytes) (depth : Nat) (location : Location)
    (pageStream : Bytes) (reader : Reader)
    (accepted : parsePage files depth location pageStream Page.empty = .ok reader) :
    ∃ pieces, divide none (tokens pageStream.length pageStream) = some pieces ∧
      (pieces.flatMap Piece.tokens).flatten = pageStream ∧
      ((∀ piece ∈ pieces, piece.IncludesNothing location) →
        (Separated location pieces reader ↔ ∀ piece ∈ pieces, piece.strays = [])) := by
  cases depth with
  | zero => cases accepted
  | succ depth =>
      obtain ⟨pieces, last, divided, whole, valid, ran, rfl⟩ := parse_accepted accepted
      refine ⟨pieces, divided, whole, ?_⟩
      intro includes
      constructor
      · intro separated piece member
        obtain ⟨_, grown⟩ := pieces_grow (includeFile_appends files depth location) pieces rfl valid ran
        have length := congrArg List.length separated.handler
        have start : (firstReader Page.empty).page.handler.length = markupBegin.length := rfl
        simp only [Reader.write, Page.writeHandler, List.length_append] at length
        have none : (pieces.flatMap Piece.strays).flatten.length = 0 := by omega
        rw [List.eq_nil_iff_forall_not_mem]
        intro token stray
        have filled : token ≠ [] := by
          cases piece with
          | markup text => cases stray
          | section_ tag state inner =>
              have tagged : token ∈ inner.filter (fun token => (opens token).isSome) := by
                cases state <;> simp_all [Piece.strays]
              exact opens_ne_nil (List.mem_filter.mp tagged).2
        have inside : token ∈ pieces.flatMap Piece.strays := List.mem_flatMap.mpr ⟨piece, member, stray⟩
        exact filled (List.flatten_eq_nil_iff.mp (List.length_eq_zero_iff.mp none) token inside)
      · intro plain
        have adds := pieces_add pieces rfl valid plain includes ran
        constructor
        · rw [Reader.write, Page.writeHandler, adds.handler]
          rfl
        · exact adds.preHandler
        · exact adds.functions
        · exact adds.methods
        · exact adds.directives
        · exact adds.headerDecls
        · exact adds.implDecls

def noFiles (_ : Bytes) : Option Bytes := none

theorem result_of_toOption {α β : Type} {run : Except PageError α} {output : α → β} {value : β}
    (read : run.toOption.map output = some value) : ∃ result, run = .ok result ∧ output result = value := by
  cases run with
  | error exn => cases read
  | ok result => exact ⟨result, rfl, Option.some.inj read⟩

theorem accepted_of_toBool {α : Type} {run : Except PageError α} (fine : run.toBool = true) :
    ∃ result, run = .ok result := by
  cases run with
  | error exn => cases fine
  | ok result => exact ⟨result, rfl⟩

theorem sections_separated_iff_sample :
    ∃ reader pieces, parsePage noFiles 1 ⟨[], []⟩ (ascii "a<%!f%><%=x%>") Page.empty = .ok reader ∧
      divide none (tokens 13 (ascii "a<%!f%><%=x%>")) = some pieces ∧ Separated ⟨[], []⟩ pieces reader := by
  let pieces : List Piece :=
    [.markup [97], .section_ (ascii "<%!") .functions [[102]], .section_ (ascii "<%=") .expr [[120]]]
  have known : divide none (tokens 13 (ascii "a<%!f%><%=x%>")) = some pieces := by decide +kernel
  have fine : (parsePage noFiles 1 ⟨[], []⟩ (ascii "a<%!f%><%=x%>") Page.empty).toBool = true := by decide +kernel
  obtain ⟨reader, accepted⟩ := accepted_of_toBool fine
  obtain ⟨found, divided, _, separated⟩ := sections_separated_iff noFiles 1 ⟨[], []⟩
    (ascii "a<%!f%><%=x%>") reader accepted
  have same : some found = some pieces := divided.symm.trans known
  cases same
  refine ⟨reader, pieces, accepted, known, (separated ?_).mpr ?_⟩
  · intro piece member text directive
    have none : ∀ piece ∈ pieces, piece.directive = [] := by decide +kernel
    rw [none piece member] at directive
    cases directive
  · decide +kernel

/-- The text of a hidden comment is found in the code of the handler. -/
theorem comment_is_copied :
    ∃ reader pieces, parsePage noFiles 1 ⟨[], []⟩ (ascii "<%--<%--%>") Page.empty = .ok reader ∧
      divide none (tokens 10 (ascii "<%--<%--%>")) = some pieces ∧
      pieces = [.section_ (ascii "<%--") .comment [ascii "<%--"]] ∧
      reader.page.handler = markupBegin ++ markupEnd ++ ascii "<%--" ++ markupBegin ++ markupEnd ∧
      ¬Separated ⟨[], []⟩ pieces reader := by
  have output : (parsePage noFiles 1 ⟨[], []⟩ (ascii "<%--<%--%>") Page.empty).toOption.map
      (fun reader => reader.page.handler) =
        some (markupBegin ++ markupEnd ++ ascii "<%--" ++ markupBegin ++ markupEnd) := by
    decide +kernel
  obtain ⟨reader, accepted, written⟩ := result_of_toOption output
  refine ⟨reader, [.section_ (ascii "<%--") .comment [ascii "<%--"]], accepted, by decide +kernel, rfl, written, ?_⟩
  intro separated
  have handler := separated.handler
  simp only [written] at handler
  revert handler
  decide +kernel

end FastcgiContainer.PageCompiler
