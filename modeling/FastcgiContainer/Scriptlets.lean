import FastcgiContainer.EmptyStatements

/-! What the code of a page becomes in the generated source. The handler is made of output
statements, of other text that the reader generates, and of text that is copied from the page;
only statements of the first kind may be removed. -/

namespace FastcgiContainer.PageCompiler

open Word (Bytes)

/-- A part of the handler. Copied text has generated text in front of it. -/
inductive Segment where
  | statement (literal : Bytes)
  | generated (text : Bytes)
  | copied (lead text : Bytes)
  deriving DecidableEq, Repr

namespace Segment

def text : Segment → Bytes
  | statement literal => outputStatement literal
  | generated text => text
  | copied lead text => lead ++ text

def cleaned : Segment → Bytes
  | statement literal => if emptyLiteral literal then [] else outputStatement literal
  | generated text => text
  | copied lead text => lead ++ text

def fromPage : Segment → Bytes
  | copied _ text => text
  | _ => []

end Segment

def generatedTexts : List Bytes :=
  [ascii "\n", ascii "\n\tresponseStream << ", ascii ");\n", ascii "\tresponse->includePath",
    ascii "\tresponse->includeComponent", ascii "\");"]

def leads : List Bytes :=
  [ascii "\n", ascii "(", ascii "(\"", ascii "\t// begin include ", ascii "\t// end include "]

section Segments

/-- The tokens of a section that go to the handler, because they look like opening tags. -/
def strayText (inner : List Bytes) : Bytes := (inner.filter (fun token => (opens token).isSome)).flatten

def directiveText (inner : List Bytes) : Bytes := (inner.filter (fun token => (opens token).isNone)).flatten

def attributeSegments (included : Bytes → List Segment) (entry : Bytes × Bytes) : List Segment :=
  if entry.1 = ascii "include.page" then included entry.2
  else if entry.1 = ascii "include.path" then
    [.generated (ascii "\tresponse->includePath"), .copied (ascii "(\"") entry.2, .generated (ascii "\");")]
  else if entry.1 = ascii "include.component" then
    [.generated (ascii "\tresponse->includeComponent"), .copied (ascii "(\"") entry.2, .generated (ascii "\");")]
  else []

def directiveSegments (location : Location) (included : Bytes → List Segment) (inner : List Bytes) : List Segment :=
  (attributesIn location (directiveText inner)).flatMap (attributeSegments included)

/-- What a section adds to the handler, from the line end of the statement before it on. -/
def sectionSegments (directive : List Bytes → List Segment) (inner : List Bytes) : ParsingState → List Segment
  | .block => [.copied (ascii "\n") inner.flatten]
  | .expr =>
      [.generated (ascii "\n\tresponseStream << "), .copied (ascii "(") inner.flatten, .generated (ascii ");\n")]
  | .attr => .copied (ascii "\n") (strayText inner) :: directive inner
  | _ => [.copied (ascii "\n") (strayText inner)]

/-- The parts of the handler, from inside of an output statement on. -/
def assemble (directive : List Bytes → List Segment) : Bytes → List Piece → List Segment
  | literal, [] => [.statement literal, .generated (ascii "\n")]
  | literal, .markup token :: rest =>
      if token = [10] then
        .statement (literal ++ ascii "\\n") :: .generated (ascii "\n") :: assemble directive [] rest
      else assemble directive (literal ++ Reader.markupText token) rest
  | literal, .section_ _ state inner :: rest =>
      .statement literal :: (sectionSegments directive inner state ++ assemble directive [] rest)

def includedSegments (files : Bytes → Option Bytes) (segments : Location → Bytes → List Segment) (location : Location)
    (path : Bytes) : List Segment :=
  let includePath := pathToFile location.path ++ ascii "/" ++ path
  match files includePath with
  | none => []
  | some source =>
      .copied (ascii "\t// begin include ") includePath :: .generated (ascii "\n") ::
        (segments ⟨includePath, location.path :: location.parents⟩ source ++
          [.copied (ascii "\t// end include ") includePath, .generated (ascii "\n")])

def pageSegments (files : Bytes → Option Bytes) : Nat → Location → Bytes → List Segment
  | 0, _, _ => []
  | depth + 1, location, pageStream =>
      match divide none (tokens pageStream.length pageStream) with
      | none => []
      | some pieces =>
          assemble (directiveSegments location (includedSegments files (pageSegments files depth) location)) [] pieces

end Segments

def joined (segments : List Segment) : Bytes := segments.flatMap Segment.text

@[simp] theorem joined_nil : joined [] = [] := rfl

@[simp] theorem joined_cons (segment : Segment) (rest : List Segment) :
    joined (segment :: rest) = segment.text ++ joined rest := rfl

@[simp] theorem joined_append (first second : List Segment) :
    joined (first ++ second) = joined first ++ joined second := List.flatMap_append

section Writes

theorem markupEnd_eq : markupEnd = ascii "\";" ++ ascii "\n" := by simp [markupEnd, ascii]

def Writes (act : Page → Except PageError Page) (segments : List Segment) : Prop :=
  ∀ page next, act page = .ok next → next.handler = page.handler ++ joined segments

variable {include_ : Bytes → Page → Except PageError Page} {included : Bytes → List Segment}

theorem handleAttribute_writes (includes : ∀ path, Writes (include_ path) (included path)) (entry : Bytes × Bytes) :
    Writes (handleAttribute include_ entry.1 entry.2) (attributeSegments included entry) := by
  intro page next done
  by_cases plain : isInclude entry.1 = false
  · rw [(handleAttribute_declares entry.1 entry.2 plain done).handler]
    simp only [isInclude, Bool.or_eq_false_iff, beq_eq_false_iff_ne] at plain
    simp only [attributeSegments, plain, if_false, joined_nil, List.append_nil]
  · unfold handleAttribute at done
    unfold attributeSegments
    split at done
    · next page_ =>
        rw [if_pos page_]
        exact includes entry.2 page next done
    · next other =>
        rw [if_neg other]
        split at done
        · next path =>
            cases done
            rw [if_pos path]
            simp [Page.writeHandler, Segment.text, ascii]
        · next another =>
            rw [if_neg another]
            split at done
            · next component =>
                cases done
                rw [if_pos component]
                simp [Page.writeHandler, Segment.text, ascii]
            · next foreign_ =>
                simp [isInclude, other, another, foreign_] at plain

theorem attributes_write (includes : ∀ path, Writes (include_ path) (included path)) (list : List (Bytes × Bytes)) :
    Writes (fun page => list.foldlM (fun page entry => handleAttribute include_ entry.1 entry.2 page) page)
      (list.flatMap (attributeSegments included)) := by
  induction list with
  | nil =>
      intro page next done
      cases done
      simp
  | cons entry rest ih =>
      intro page next done
      obtain ⟨middle, handled, later⟩ := foldlM_ok done
      rw [ih middle next later, handleAttribute_writes includes entry page middle handled, List.flatMap_cons,
        joined_append, List.append_assoc]

variable {location : Location} {reader next : Reader}

theorem inner_attrs (inner : List Bytes) (inside : reader.state = .attr) (unclosed : closingTag ∉ inner)
    (done : inner.foldlM (Reader.step include_ location) reader = .ok next) :
    next.attrs = reader.attrs ++ directiveText inner := by
  induction inner generalizing reader with
  | nil =>
      cases done
      simp [directiveText]
  | cons token rest ih =>
      rw [List.mem_cons, not_or] at unclosed
      obtain ⟨middle, stepped, later⟩ := foldlM_ok done
      have outside : reader.state ≠ .markup := by
        rw [inside]
        decide
      cases tag : opens token with
      | some state =>
          rw [step_stray (by rw [tag]; rfl) outside] at stepped
          cases stepped
          have read := @ih (reader.write token) inside unclosed.2 later
          simp only [directiveText, List.filter_cons, tag, Option.isNone_some, Bool.false_eq_true, if_false]
          exact read
      | none =>
          rw [step_text tag (Ne.symm unclosed.1)] at stepped
          cases stepped
          have same : (reader.text token).state = reader.state := text_state
          have added : (reader.text token).attrs = reader.attrs ++ token := by
            rw [Reader.text, inside]
          have read := ih (same.trans inside) unclosed.2 later
          rw [read, added]
          simp [directiveText, tag]

theorem section_writes (includes : ∀ path, Writes (include_ path) (included path)) (tag : Bytes)
    (state : ParsingState) (inner : List Bytes) (outside : reader.state = .markup)
    (divided : (Piece.section_ tag state inner).Divided)
    (done : (Piece.section_ tag state inner).tokens.foldlM (Reader.step include_ location) reader = .ok next) :
    next.state = .markup ∧ next.page.handler = reader.page.handler ++ ascii "\";" ++
      joined (sectionSegments (directiveSegments location included) inner state) ++ markupBegin := by
  obtain ⟨opened, unclosed⟩ := divided
  have real := opens_state opened
  have inside : (reader.enter state).state ≠ .markup := by
    rw [enter_state]
    exact real.1
  by_cases handled : state = .block ∨ state = .expr
  · have ran := @inner_plain include_ location (reader.enter state) inner inside unclosed
      (Or.inl (by rw [enter_state]; exact handled))
    have closed := section_close tag state inner outside opened ran done
    refine ⟨close_state closed, ?_⟩
    rcases handled with rfl | rfl
    · cases closed
      simp [Reader.write, Reader.enter, Reader.text, Page.writeHandler, sectionSegments, Segment.text, markupEnd,
        ascii]
    · cases closed
      simp [Reader.write, Reader.enter, Reader.text, Page.writeHandler, sectionSegments, Segment.text, markupEnd,
        exprBegin, exprEnd, ascii]
  · rw [not_or] at handled
    obtain ⟨middle, ran, place, written⟩ := @inner_strays include_ location (reader.enter state) inner inside
      (by rw [enter_state]; exact handled) unclosed
    have closed := section_close tag state inner outside opened ran done
    have entered : (reader.enter state).page.handler = reader.page.handler ++ markupEnd := by
      cases state with
      | expr => exact absurd rfl handled.2
      | _ => rfl
    rw [enter_state] at place
    rw [entered] at written
    refine ⟨close_state closed, ?_⟩
    by_cases directive : state = .attr
    · subst directive
      obtain ⟨page, attributes, rfl⟩ := close_attr place closed
      have attrs := inner_attrs inner (enter_state .attr) unclosed ran
      have blank : (reader.enter .attr).attrs = [] := rfl
      rw [blank, List.nil_append] at attrs
      rw [attrs] at attributes
      have added := attributes_write includes _ middle.page page attributes
      simp only [Page.writeHandler, sectionSegments, joined_cons, Segment.text, directiveSegments]
      rw [added, written, markupEnd_eq]
      simp [strayText]
    · have ends : next = { middle.write markupBegin with state := .markup } := by
        unfold Reader.close at closed
        rw [place] at closed
        cases state with
        | markup => exact absurd rfl real.1
        | attr => exact absurd rfl directive
        | expr => exact absurd rfl handled.2
        | _ => exact (Except.ok.inj closed).symm
      have added : sectionSegments (directiveSegments location included) inner state =
          [.copied (ascii "\n") (strayText inner)] := by
        cases state with
        | block => exact absurd rfl handled.1
        | expr => exact absurd rfl handled.2
        | attr => exact absurd rfl directive
        | _ => rfl
      rw [ends, added]
      simp only [Reader.write, Page.writeHandler, written, markupEnd_eq]
      simp [Segment.text, strayText]

theorem pieces_write (includes : ∀ path, Writes (include_ path) (included path)) (pieces : List Piece)
    (base literal : Bytes) (outside : reader.state = .markup) (divided : ∀ piece ∈ pieces, piece.Divided)
    (begun : reader.page.handler = base ++ markupBegin ++ literal)
    (done : (pieces.flatMap Piece.tokens).foldlM (Reader.step include_ location) reader = .ok next) :
    next.page.handler ++ markupEnd =
      base ++ joined (assemble (directiveSegments location included) literal pieces) := by
  induction pieces generalizing reader base literal with
  | nil =>
      cases done
      rw [begun, markupEnd_eq]
      simp [assemble, Segment.text, outputStatement]
  | cons piece rest ih =>
      rw [List.flatMap_cons] at done
      obtain ⟨middle, first, later⟩ := foldlM_split done
      have valid : ∀ other ∈ rest, Piece.Divided other := fun other member => divided other (List.mem_cons_of_mem piece member)
      cases piece with
      | markup token =>
          obtain ⟨stepped, taken, none⟩ := foldlM_ok first
          cases none
          obtain ⟨place, adds⟩ := markup_adds token outside (divided _ List.mem_cons_self) taken
          have written := adds.handler
          simp only [List.flatMap_cons, List.flatMap_nil, List.append_nil, Piece.inHandler, begun] at written
          rw [assemble]
          split
          · next newline =>
              subst newline
              have text : Reader.markupText [10] = ascii "\\n" ++ (ascii "\";" ++ ascii "\n") ++ markupBegin := by
                rw [Reader.markupText, if_pos rfl, markupEnd_eq]
              rw [text] at written
              rw [ih (base ++ outputStatement (literal ++ ascii "\\n") ++ ascii "\n") [] place valid
                (by rw [written]; simp [outputStatement]) later]
              simp [Segment.text]
          · exact ih base (literal ++ Reader.markupText token) place valid (by rw [written]; simp) later
      | section_ tag state inner =>
          obtain ⟨place, written⟩ := section_writes includes tag state inner outside (divided _ List.mem_cons_self) first
          rw [ih (base ++ outputStatement literal ++
              joined (sectionSegments (directiveSegments location included) inner state)) [] place valid
            (by rw [written, begun]; simp [outputStatement]) later]
          simp [assemble, Segment.text]

end Writes

theorem parsePage_writes (files : Bytes → Option Bytes) (depth : Nat) (location : Location) (pageStream : Bytes)
    (page : Page) (reader : Reader) (accepted : parsePage files depth location pageStream page = .ok reader) :
    reader.page.handler = page.handler ++ joined (pageSegments files depth location pageStream) := by
  induction depth generalizing location pageStream page reader with
  | zero => cases accepted
  | succ depth ih =>
      obtain ⟨pieces, last, divided, _, valid, ran, rfl⟩ := parse_accepted accepted
      have includes : ∀ path, Writes (includeFile files (parsePage files depth) location path)
          (includedSegments files (pageSegments files depth) location path) := by
        intro path page next done
        simp only [includeFile] at done
        simp only [includedSegments]
        cases opened : files (pathToFile location.path ++ ascii "/" ++ path) with
        | none =>
            rw [opened] at done
            cases done
        | some source =>
            simp only [opened] at done ⊢
            split at done
            · cases done
            · next inner parsed =>
                cases done
                have read := ih _ source _ inner parsed
                simp only [Page.writeHandler] at read ⊢
                rw [read]
                simp [Segment.text]
      have written := pieces_write includes pieces page.handler [] rfl valid
        (by simp [firstReader, Page.writeHandler]) ran
      rw [pageSegments, divided]
      exact written

section Fine

def QuoteApart (token : Bytes) : Prop := token = [34] ∨ (34 : UInt8) ∉ token

theorem tagToken_quote (istr : Bytes) : (34 : UInt8) ∉ (tagToken istr).1 := by
  have fixed : (34 : UInt8) ∉ ascii "<%" := by simp [ascii]
  have longer : ∀ symbol ∈ ([37, 64, 61, 33, 45] : Bytes), (34 : UInt8) ∉ ascii "<%" ++ [symbol] ∧
      (34 : UInt8) ∉ ascii "<%" ++ [symbol, symbol] := by
    simp [ascii]
  cases istr with
  | nil => exact fixed
  | cons ch rest =>
      rw [tagToken]
      split
      · next tag => exact (longer ch (by rcases tag with rfl | rfl | rfl <;> decide)).1
      · split
        · next tag =>
            have listed := longer ch (by rcases tag with rfl | rfl <;> decide)
            split
            · exact listed.2
            · exact listed.1
        · exact fixed

theorem nextToken_quote (pageStream : Bytes) : QuoteApart (nextToken pageStream).1 := by
  cases pageStream with
  | nil => exact Or.inr List.not_mem_nil
  | cons ch rest =>
      rw [nextToken]
      have closing : (34 : UInt8) ∉ ascii "%>" := by simp [ascii]
      split
      · exact Or.inr (tagToken_quote rest.tail)
      · split
        · exact Or.inr closing
        · by_cases quote : ch = 34
          · exact Or.inl (by rw [quote])
          · exact Or.inr (by simpa using Ne.symm quote)

theorem tokens_quote (fuel : Nat) (pageStream : Bytes) : ∀ token ∈ tokens fuel pageStream, QuoteApart token := by
  induction fuel generalizing pageStream with
  | zero => simp [tokens]
  | succ fuel ih =>
      intro token member
      rw [tokens] at member
      split at member
      · cases member
      · rcases List.mem_cons.mp member with rfl | later
        · exact nextToken_quote pageStream
        · exact ih _ token later

theorem markupText_quote (token : Bytes) (apart : QuoteApart token) (inLine : token ≠ [10]) :
    Reader.markupText token = [92, 34] ∨ (34 : UInt8) ∉ Reader.markupText token := by
  rw [Reader.markupText, if_neg inLine]
  split
  · exact Or.inr (by simp [ascii])
  · split
    · exact Or.inl (by simp [ascii])
    · next other =>
        split
        · exact Or.inr List.not_mem_nil
        · exact Or.inr (apart.resolve_left other)

namespace Segment

def Fine : Segment → Prop
  | statement literal => Escaped literal
  | generated text => text ∈ generatedTexts
  | copied lead _ => lead ∈ leads

end Segment

theorem attributeSegments_fine (included : Bytes → List Segment)
    (fine : ∀ path, ∀ segment ∈ included path, segment.Fine) (entry : Bytes × Bytes) :
    ∀ segment ∈ attributeSegments included entry, segment.Fine := by
  unfold attributeSegments
  split
  · exact fine entry.2
  · split
    · simp [Segment.Fine, generatedTexts, leads]
    · split
      · simp [Segment.Fine, generatedTexts, leads]
      · simp

theorem sectionSegments_fine (directive : List Bytes → List Segment)
    (fine : ∀ inner, ∀ segment ∈ directive inner, segment.Fine) (inner : List Bytes) (state : ParsingState) :
    ∀ segment ∈ sectionSegments directive inner state, segment.Fine := by
  cases state with
  | attr =>
      intro segment member
      rcases List.mem_cons.mp member with rfl | later
      · exact List.mem_cons_self
      · exact fine inner segment later
  | _ => simp [sectionSegments, Segment.Fine, generatedTexts, leads]

theorem assemble_fine (directive : List Bytes → List Segment)
    (fine : ∀ inner, ∀ segment ∈ directive inner, segment.Fine) (pieces : List Piece) (literal : Bytes)
    (escaped : Escaped literal) (apart : ∀ piece ∈ pieces, ∀ token ∈ piece.tokens, QuoteApart token) :
    ∀ segment ∈ assemble directive literal pieces, segment.Fine := by
  induction pieces generalizing literal with
  | nil => simp [assemble, Segment.Fine, escaped, generatedTexts]
  | cons piece rest ih =>
      have later : ∀ other ∈ rest, ∀ token ∈ other.tokens, QuoteApart token :=
        fun other member => apart other (List.mem_cons_of_mem piece member)
      cases piece with
      | markup token =>
          rw [assemble]
          split
          · intro segment member
            rcases List.mem_cons.mp member with rfl | member
            · exact escaped.append (Or.inr (by simp [ascii]))
            · rcases List.mem_cons.mp member with rfl | member
              · exact List.mem_cons_self
              · exact ih [] Escaped.nil later segment member
          · next inLine =>
              have token_apart := apart (.markup token) List.mem_cons_self token List.mem_cons_self
              exact ih _ (escaped.append (markupText_quote token token_apart inLine)) later
      | section_ tag state inner =>
          intro segment member
          rw [assemble] at member
          rcases List.mem_cons.mp member with rfl | member
          · exact escaped
          · rcases List.mem_append.mp member with here | there
            · exact sectionSegments_fine directive fine inner state segment here
            · exact ih [] Escaped.nil later segment there

theorem pageSegments_fine (files : Bytes → Option Bytes) (depth : Nat) (location : Location) (pageStream : Bytes) :
    ∀ segment ∈ pageSegments files depth location pageStream, segment.Fine := by
  induction depth generalizing location pageStream with
  | zero => simp [pageSegments]
  | succ depth ih =>
      have included : ∀ path, ∀ segment ∈ includedSegments files (pageSegments files depth) location path,
          segment.Fine := by
        intro path segment member
        unfold includedSegments at member
        simp only at member
        split at member
        · cases member
        · rcases List.mem_cons.mp member with rfl | member
          · simp [Segment.Fine, leads]
          · rcases List.mem_cons.mp member with rfl | member
            · simp [Segment.Fine, generatedTexts]
            · rcases List.mem_append.mp member with inside | ending
              · exact ih _ _ segment inside
              · simp only [List.mem_cons, List.not_mem_nil, or_false] at ending
                rcases ending with rfl | rfl
                · simp [Segment.Fine, leads]
                · simp [Segment.Fine, generatedTexts]
      have directive : ∀ inner, ∀ segment ∈
          directiveSegments location (includedSegments files (pageSegments files depth) location) inner,
          segment.Fine := by
        intro inner segment member
        obtain ⟨entry, _, inside⟩ := List.mem_flatMap.mp member
        exact attributeSegments_fine _ included entry segment inside
      rw [pageSegments]
      split
      · simp
      · next pieces divided =>
          obtain ⟨same, _⟩ := divide_tokens _ none pieces divided (by simp)
          apply assemble_fine _ directive pieces [] Escaped.nil
          intro piece member token inside
          apply tokens_quote pageStream.length pageStream
          have read : tokens pageStream.length pageStream = pieces.flatMap Piece.tokens := same
          rw [read]
          exact List.mem_flatMap.mpr ⟨piece, member, inside⟩

end Fine

section Cleaned

theorem generated_fenced : ∀ text ∈ generatedTexts,
    text = 34 :: 41 :: ascii ";" ∨ ∃ symbol ∈ ([9, 10, 40, 41] : Bytes), text.head? = some symbol := by
  simp [generatedTexts, ascii]

theorem leads_fenced : ∀ lead ∈ leads, ∃ symbol ∈ ([9, 10, 40, 41] : Bytes), lead.head? = some symbol := by
  simp [leads, ascii]

theorem generated_clear (text : Bytes) (listed : text ∈ generatedTexts) : hasStatement text = false := by
  have cases_ : (59 : UInt8) ∉ text ∨ ∀ symbol ∈ text, tolower symbol ≠ 114 := by
    revert text
    simp [generatedTexts, ascii, tolower]
  exact cases_.elim (hasStatement_open text) (hasStatement_plain text)

theorem leads_plain : ∀ lead ∈ leads, ∀ symbol ∈ lead, tolower symbol ≠ 114 := by
  simp [leads, ascii, tolower]

theorem Segment.Fine.fenced {segment : Segment} (fine : segment.Fine) : Fenced segment.text := by
  cases segment with
  | statement literal =>
      have head : (outputStatement literal).head? = some 9 := rfl
      exact Fenced.of_head head (foreign_known 9 (by simp))
  | generated text =>
      rcases generated_fenced text fine with quoted | ⟨symbol, known, head⟩
      · exact ⟨[34], 41, ascii ";", quoted, by decide, foreign_known 41 (by simp)⟩
      · exact Fenced.of_head head (foreign_known symbol known)
  | copied lead text =>
      obtain ⟨symbol, known, head⟩ := leads_fenced lead fine
      exact (Fenced.of_head head (foreign_known symbol known)).append text

theorem Segment.Fine.kept_iff {segment : Segment} (fine : segment.Fine) :
    removeEmptyString 0 segment.text = segment.cleaned ↔ hasStatement segment.fromPage = false := by
  cases segment with
  | statement literal =>
      simp only [Segment.fromPage, hasStatement_nil, Segment.text, Segment.cleaned, iff_true]
      split
      · next empty => exact outputStatement_removed literal empty
      · next filled =>
          exact (removeEmptyString_eq_self_iff _).mpr (outputStatement_kept literal fine (by simpa using filled))
  | generated text =>
      simp only [Segment.fromPage, hasStatement_nil, Segment.text, Segment.cleaned, iff_true]
      exact (removeEmptyString_eq_self_iff text).mpr (generated_clear text fine)
  | copied lead text =>
      simp only [Segment.fromPage, Segment.text, Segment.cleaned]
      rw [removeEmptyString_eq_self_iff, hasStatement_lead lead text (leads_plain lead fine)]

theorem Segment.Fine.shorter {segment : Segment} (fine : segment.Fine) :
    (removeEmptyString 0 segment.text).length ≤ segment.cleaned.length := by
  by_cases clear : hasStatement segment.fromPage = false
  · rw [fine.kept_iff.mpr clear]
  · cases segment with
    | copied lead text => exact removeEmptyString_length 0 _
    | _ =>
        exact absurd hasStatement_nil clear

theorem flatMap_eq_iff_of_length_le {α : Type} (parts : List α) (left right : α → Bytes)
    (shorter : ∀ part ∈ parts, (left part).length ≤ (right part).length) :
    parts.flatMap left = parts.flatMap right ↔ ∀ part ∈ parts, left part = right part := by
  induction parts with
  | nil => simp
  | cons part rest ih =>
      have shorter_rest : ∀ other ∈ rest, (left other).length ≤ (right other).length :=
        fun other member => shorter other (List.mem_cons_of_mem part member)
      have total : (rest.flatMap left).length ≤ (rest.flatMap right).length := by
        rw [List.length_flatMap, List.length_flatMap]
        exact List.sum_le_sum shorter_rest
      rw [List.flatMap_cons, List.flatMap_cons, List.forall_mem_cons, ← ih shorter_rest]
      constructor
      · intro same
        have length := congrArg List.length same
        simp only [List.length_append] at length
        have first := shorter part List.mem_cons_self
        exact List.append_inj same (by omega)
      · rintro ⟨first, later⟩
        rw [first, later]

theorem segments_kept_iff (segments : List Segment) (fine : ∀ segment ∈ segments, segment.Fine) :
    removeEmptyString 0 (joined segments) = segments.flatMap Segment.cleaned ↔
      ∀ segment ∈ segments, hasStatement segment.fromPage = false := by
  have parts : removeEmptyString 0 (joined segments) =
      segments.flatMap (fun segment => removeEmptyString 0 segment.text) :=
    removeEmptyString_flatMap segments Segment.text (fun segment member => (fine segment member).fenced)
  rw [parts, flatMap_eq_iff_of_length_le segments _ Segment.cleaned (fun segment member => (fine segment member).shorter)]
  exact forall₂_congr (fun segment member => (fine segment member).kept_iff)

end Cleaned

theorem block_copied (directive : List Bytes → List Segment) (pieces : List Piece) (literal tag : Bytes)
    (inner : List Bytes) (block : .section_ tag .block inner ∈ pieces) :
    .copied (ascii "\n") inner.flatten ∈ assemble directive literal pieces := by
  induction pieces generalizing literal with
  | nil => cases block
  | cons piece rest ih =>
      cases piece with
      | markup token =>
          have later := (List.mem_cons.mp block).resolve_left (by simp)
          rw [assemble]
          split
          · exact List.mem_cons_of_mem _ (List.mem_cons_of_mem _ (ih [] later))
          · exact ih _ later
      | section_ other state text =>
          rw [assemble]
          apply List.mem_cons_of_mem
          rw [List.mem_append]
          rcases List.mem_cons.mp block with same | later
          · cases same
            exact Or.inl List.mem_cons_self
          · exact Or.inr (ih [] later)

/-- The code of a page is written as it is, and only empty output statements of its markup are
left out, exactly if no text that is copied from the page has such a statement inside. -/
theorem content_kept_iff (files : Bytes → Option Bytes) (depth : Nat) (location : Location) (pageStream : Bytes)
    (reader : Reader) (accepted : parsePage files (depth + 1) location pageStream Page.empty = .ok reader) :
    ∃ pieces, divide none (tokens pageStream.length pageStream) = some pieces ∧
      (pieces.flatMap Piece.tokens).flatten = pageStream ∧
      (∀ tag inner, .section_ tag .block inner ∈ pieces →
        .copied (ascii "\n") inner.flatten ∈ pageSegments files (depth + 1) location pageStream) ∧
      reader.page.handler = joined (pageSegments files (depth + 1) location pageStream) ∧
      (writeContent reader.page = ascii "\tfastcgi::HttpResponseStream responseStream(response);\n" ++
          (pageSegments files (depth + 1) location pageStream).flatMap Segment.cleaned ↔
        ∀ segment ∈ pageSegments files (depth + 1) location pageStream, hasStatement segment.fromPage = false) := by
  have written := parsePage_writes files (depth + 1) location pageStream Page.empty reader accepted
  have empty : Page.empty.handler = [] := rfl
  rw [empty, List.nil_append] at written
  obtain ⟨pieces, last, divided, whole, valid, ran, rfl⟩ := parse_accepted accepted
  refine ⟨pieces, divided, whole, ?_, written, ?_⟩
  · intro tag inner block
    rw [pageSegments, divided]
    exact block_copied _ pieces [] tag inner block
  · rw [writeContent, List.append_right_inj, written]
    exact segments_kept_iff _ (pageSegments_fine files (depth + 1) location pageStream)

theorem content_kept_iff_sample :
    ∃ reader, parsePage noFiles 1 ⟨[], []⟩ (ascii "<%f();%>") Page.empty = .ok reader ∧
      writeContent reader.page = ascii "\tfastcgi::HttpResponseStream responseStream(response);\n" ++
        (pageSegments noFiles 1 ⟨[], []⟩ (ascii "<%f();%>")).flatMap Segment.cleaned := by
  have fine : (parsePage noFiles 1 ⟨[], []⟩ (ascii "<%f();%>") Page.empty).toBool = true := by decide +kernel
  obtain ⟨reader, accepted⟩ := accepted_of_toBool fine
  obtain ⟨_, _, _, _, _, kept⟩ := content_kept_iff noFiles 0 ⟨[], []⟩ (ascii "<%f();%>") reader accepted
  exact ⟨reader, accepted, kept.mpr (by decide +kernel)⟩

def lineEndBlock : Bytes := ascii "<%responseStream << \"\\n\";%>"

/-- A statement of a block, which ends a line of the response, is not written. -/
theorem scriptlet_lost :
    ∃ reader, parsePage noFiles 1 ⟨[], []⟩ lineEndBlock Page.empty = .ok reader ∧
      divide none (tokens lineEndBlock.length lineEndBlock) =
        some [.section_ (ascii "<%") .block ((ascii "responseStream << \"\\n\";").map (fun symbol => [symbol]))] ∧
      writeContent reader.page = ascii "\tfastcgi::HttpResponseStream responseStream(response);\n\n" ∧
      ¬ascii "responseStream << \"\\n\";" <:+: writeContent reader.page := by
  have output : (parsePage noFiles 1 ⟨[], []⟩ lineEndBlock Page.empty).toOption.map
      (fun reader => writeContent reader.page) =
        some (ascii "\tfastcgi::HttpResponseStream responseStream(response);\n\n") := by
    decide +kernel
  obtain ⟨reader, accepted, written⟩ := result_of_toOption output
  refine ⟨reader, accepted, by decide +kernel, written, ?_⟩
  simp only [written]
  decide +kernel

end FastcgiContainer.PageCompiler
