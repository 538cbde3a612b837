import FastcgiContainer.PageMarkup
import FastcgiContainer.Scriptlets

/-! What the handler of a page does. The markup of a page and of the pages it includes is
written line by line, without carriage returns and without empty lines, and the code between
stays where it is. -/

namespace FastcgiContainer.PageCompiler

open Word (Bytes)
open CppLiteral (SingleMarks addFront literals replaceTrigraphs replaceTrigraphs_eq statements)

/-- A part of a handler: markup that is written, code that is run, a tag that stands where no tag
belongs and is copied, or an expression or another handler whose output is written. -/
inductive Item where
  | say (text : Bytes)
  | run (code : Bytes)
  | stray (tag : Bytes)
  | print (expression : Bytes)
  | includePath (path : Bytes)
  | includeComponent (name : Bytes)
  deriving DecidableEq, Repr

section Meaning

/-- The lines of a text, each with its line feed. What stands behind the last one counts as a
line, too. -/
def fedLines : Bytes → List Bytes
  | [] => [[]]
  | symbol :: rest => if symbol = 10 then [10] :: fedLines rest else addFront [symbol] (fedLines rest)

def withoutReturns (text : Bytes) : Bytes := text.filter (fun symbol => symbol != 13)

def keptLines (text : Bytes) : List Bytes :=
  (fedLines (withoutReturns text)).filter (fun line => line != [] && line != [10])

/-- The markup in front of the first section, and each section with the markup behind it. -/
def runsOf : List Piece → Bytes × List (ParsingState × List Bytes × Bytes)
  | [] => ([], [])
  | .markup token :: rest => (token ++ (runsOf rest).1, (runsOf rest).2)
  | .section_ _ state inner :: rest => ([], (state, inner, (runsOf rest).1) :: (runsOf rest).2)

/-- A tag inside of a section that is not for the handler is copied to it. -/
def strayItems (inner : List Bytes) : List Item := if strayText inner = [] then [] else [.stray (strayText inner)]

def attributeItems (included : Bytes → List Item) (entry : Bytes × Bytes) : List Item :=
  if entry.1 = ascii "include.page" then included entry.2
  else if entry.1 = ascii "include.path" then [.includePath entry.2]
  else if entry.1 = ascii "include.component" then [.includeComponent entry.2]
  else []

def sectionItems (location : Location) (included : Bytes → List Item) (inner : List Bytes) :
    ParsingState → List Item
  | .block => [.run inner.flatten]
  | .expr => [.print inner.flatten]
  | .attr => strayItems inner ++ (attributesIn location (directiveText inner)).flatMap (attributeItems included)
  | _ => strayItems inner

def markupItems (text : Bytes) : List Item := (keptLines text).map Item.say

def runItems (location : Location) (included : Bytes → List Item) (run : ParsingState × List Bytes × Bytes) :
    List Item := sectionItems location included run.2.1 run.1 ++ markupItems run.2.2

def piecesItems (location : Location) (included : Bytes → List Item) (pieces : List Piece) : List Item :=
  markupItems (runsOf pieces).1 ++ (runsOf pieces).2.flatMap (runItems location included)

def includedItems (files : Bytes → Option Bytes) (items : Location → Bytes → List Item) (location : Location)
    (path : Bytes) : List Item :=
  let includePath := pathToFile location.path ++ ascii "/" ++ path
  match files includePath with
  | none => []
  | some source => items ⟨includePath, location.path :: location.parents⟩ source

/-- What a page is meant to do, with the pages that it includes in their places. -/
def pageItems (files : Bytes → Option Bytes) : Nat → Location → Bytes → List Item
  | 0, _, _ => []
  | depth + 1, location, pageStream =>
      match divide none (tokens pageStream.length pageStream) with
      | none => []
      | some pieces => piecesItems location (includedItems files (pageItems files depth) location) pieces

/-- A text that a line comment may hold: the line does not end inside of it, nor go on behind it. -/
def commentable (text : Bytes) : Bool := !text.contains 10 && text.getLast? != some 92 && decide (SingleMarks text)

def includedReadable (files : Bytes → Option Bytes) (readable : Location → Bytes → Bool) (location : Location)
    (entry : Bytes × Bytes) : Bool :=
  entry.1 != ascii "include.page" ||
    let includePath := pathToFile location.path ++ ascii "/" ++ entry.2
    commentable includePath &&
      match files includePath with
      | none => true
      | some source => readable ⟨includePath, location.path :: location.parents⟩ source

def pieceReadable (location : Location) (included : Bytes × Bytes → Bool) : Piece → Bool
  | .markup token => !token.contains 92
  | .section_ _ .attr inner => (attributesIn location (directiveText inner)).all included
  | .section_ _ _ _ => true

def untrigraphed (pieces : List Piece) : Bool :=
  decide (SingleMarks (withoutReturns (runsOf pieces).1)) &&
    (runsOf pieces).2.all (fun run => decide (SingleMarks (withoutReturns run.2.2)))

/-- No backslash and no trigraph stands in the markup, and the paths of included pages can be named in
comments. -/
def readable (files : Bytes → Option Bytes) : Nat → Location → Bytes → Bool
  | 0, _, _ => true
  | depth + 1, location, pageStream =>
      match divide none (tokens pageStream.length pageStream) with
      | none => true
      | some pieces =>
          untrigraphed pieces &&
            pieces.all (pieceReadable location (includedReadable files (readable files depth) location))

inductive Statement : Bytes → List Item → Prop where
  | lineEnd : Statement (ascii "\n") []
  | comment (text : Bytes) (inLine : commentable text = true) : Statement (ascii "\t// " ++ text ++ ascii "\n") []
  | say (statement text : Bytes)
      (reads : statements markupBegin (ascii ";") (replaceTrigraphs statement) = some [text]) :
      Statement statement [.say text]
  | run (code : Bytes) : Statement (ascii "\n" ++ code) [.run code]
  | stray (tag : Bytes) : Statement (ascii "\n" ++ tag) [.stray tag]
  | print (expression : Bytes) :
      Statement (ascii "\n\tresponseStream << (" ++ expression ++ ascii ");\n") [.print expression]
  | includePath (path : Bytes) :
      Statement (ascii "\tresponse->includePath(\"" ++ path ++ ascii "\");") [.includePath path]
  | includeComponent (name : Bytes) :
      Statement (ascii "\tresponse->includeComponent(\"" ++ name ++ ascii "\");") [.includeComponent name]

/-- A source text that is made of the texts of items, in their order. -/
inductive Program : Bytes → List Item → Prop where
  | empty : Program [] []
  | cons {text rest : Bytes} {items others : List Item} (first : Statement text items)
      (later : Program rest others) : Program (text ++ rest) (items ++ others)

theorem Program.append {left right : Bytes} {items others : List Item} (first : Program left items)
    (later : Program right others) : Program (left ++ right) (items ++ others) := by
  induction first with
  | empty => exact later
  | cons first _ ih =>
      rw [List.append_assoc, List.append_assoc]
      exact .cons first ih

theorem Statement.program {text : Bytes} {items : List Item} (only : Statement text items) : Program text items := by
  have single := Program.cons only .empty
  rwa [List.append_nil, List.append_nil] at single

theorem Program.flatMap {α : Type} (list : List α) (text : α → Bytes) (items : α → List Item)
    (each : ∀ entry ∈ list, Program (text entry) (items entry)) :
    Program (list.flatMap text) (list.flatMap items) := by
  induction list with
  | nil => exact .empty
  | cons entry rest ih =>
      rw [List.flatMap_cons, List.flatMap_cons]
      exact (each entry List.mem_cons_self).append
        (ih (fun other member => each other (List.mem_cons_of_mem entry member)))

end Meaning

section Lines

theorem fedLines_line (line rest : Bytes) (inLine : (10 : UInt8) ∉ line) :
    fedLines (line ++ 10 :: rest) = (line ++ [10]) :: fedLines rest := by
  induction line with
  | nil => simp [fedLines]
  | cons symbol line ih =>
      have other : symbol ≠ 10 := fun same => inLine (same ▸ List.mem_cons_self)
      rw [List.cons_append, fedLines, if_neg other, ih (fun member => inLine (List.mem_cons_of_mem symbol member))]
      rfl

theorem fedLines_last (line : Bytes) (inLine : (10 : UInt8) ∉ line) : fedLines line = [line] := by
  induction line with
  | nil => rfl
  | cons symbol line ih =>
      have other : symbol ≠ 10 := fun same => inLine (same ▸ List.mem_cons_self)
      rw [fedLines, if_neg other, ih (fun member => inLine (List.mem_cons_of_mem symbol member))]
      rfl

theorem withoutReturns_inLine {line : Bytes} (inLine : (10 : UInt8) ∉ line) : (10 : UInt8) ∉ withoutReturns line :=
  fun member => inLine (List.mem_filter.mp member).1

theorem keptLines_last (line : Bytes) (inLine : (10 : UInt8) ∉ line) :
    keptLines line = if withoutReturns line = [] then [] else [withoutReturns line] := by
  have kept := fedLines_last (withoutReturns line) (withoutReturns_inLine inLine)
  have other : withoutReturns line ≠ [10] := fun same => withoutReturns_inLine inLine (by simp [same])
  rw [keptLines, kept, List.filter_cons]
  by_cases none : withoutReturns line = []
  · rw [none, if_pos rfl, if_neg (by decide), List.filter_nil]
  · rw [if_neg none, if_pos (by simp [none, other]), List.filter_nil]

theorem keptLines_line (line rest : Bytes) (inLine : (10 : UInt8) ∉ line) :
    keptLines (line ++ 10 :: rest) =
      (if withoutReturns line = [] then [] else [withoutReturns line ++ [10]]) ++ keptLines rest := by
  have kept := fedLines_line (withoutReturns line) (withoutReturns rest) (withoutReturns_inLine inLine)
  have split : withoutReturns (line ++ 10 :: rest) = withoutReturns line ++ 10 :: withoutReturns rest := by
    simp [withoutReturns]
  rw [keptLines, split, kept, List.filter_cons]
  by_cases none : withoutReturns line = []
  · rw [none, if_pos rfl, if_neg (by decide), keptLines, List.nil_append]
  · rw [if_neg none, if_pos (by simpa using none), keptLines, List.singleton_append]

end Lines

section Literal

def written (line : Bytes) : Bytes := line.flatMap (fun symbol => Reader.markupText [symbol])

def Reads (tail text : Bytes) : Prop :=
  ∀ fuel, tail.length ≤ fuel → literals markupBegin (ascii ";") fuel tail = some [text]

theorem reads_end : Reads (ascii "\";") [] := by
  intro fuel enough
  obtain ⟨less, rfl⟩ := Nat.exists_eq_add_of_le' (le_trans (by decide : 1 ≤ (ascii "\";").length) enough)
  have split : ascii "\";" = 34 :: ascii ";" := by decide
  rw [split]
  simp [literals]

theorem reads_escape (bytes : Bytes) {tail text after : Bytes} (known : CppLiteral.escape after = some (bytes, tail))
    (longer : tail.length ≤ after.length) (reads : Reads tail text) : Reads (92 :: after) (bytes ++ text) := by
  intro fuel enough
  rw [List.length_cons] at enough
  obtain ⟨less, rfl⟩ := Nat.exists_eq_add_of_le' (le_trans (Nat.le_add_left 1 after.length) enough)
  have other : ¬(92 : UInt8) = 34 ∧ ¬(92 : UInt8) = 10 := by decide
  simp only [literals, other.1, other.2, if_true, if_false, known]
  rw [reads less (by omega)]
  rfl

theorem reads_symbol {tail text : Bytes} {symbol : UInt8} (plain : symbol ≠ 34 ∧ symbol ≠ 10 ∧ symbol ≠ 92)
    (reads : Reads tail text) : Reads (symbol :: tail) (symbol :: text) := by
  intro fuel enough
  rw [List.length_cons] at enough
  obtain ⟨less, rfl⟩ := Nat.exists_eq_add_of_le' (le_trans (Nat.le_add_left 1 tail.length) enough)
  simp only [literals, plain.1, plain.2.1, plain.2.2, if_false]
  rw [reads less (by omega)]
  rfl

theorem reads_newline : Reads (ascii "\\n" ++ ascii "\";") [10] :=
  reads_escape [10] rfl (by decide) reads_end

theorem markupText_cases (symbol : UInt8) (inLine : symbol ≠ 10) :
    (symbol = 9 ∧ Reader.markupText [symbol] = [92, 116]) ∨ (symbol = 34 ∧ Reader.markupText [symbol] = [92, 34]) ∨
      (symbol = 13 ∧ Reader.markupText [symbol] = []) ∨
        (symbol ≠ 34 ∧ symbol ≠ 13 ∧ Reader.markupText [symbol] = [symbol]) := by
  by_cases tab : symbol = 9
  · subst tab
    exact Or.inl ⟨rfl, by simp [Reader.markupText, ascii]⟩
  · by_cases quote : symbol = 34
    · subst quote
      exact Or.inr (Or.inl ⟨rfl, by simp [Reader.markupText, ascii]⟩)
    · by_cases return_ : symbol = 13
      · subst return_
        exact Or.inr (Or.inr (Or.inl ⟨rfl, by simp [Reader.markupText]⟩))
      · exact Or.inr (Or.inr (Or.inr ⟨quote, return_, by simp [Reader.markupText, inLine, tab, quote, return_]⟩))

theorem written_cons (symbol : UInt8) (line : Bytes) :
    written (symbol :: line) = Reader.markupText [symbol] ++ written line := by
  simp [written]

theorem reads_written (line tail text : Bytes) (inLine : (10 : UInt8) ∉ line) (plain : (92 : UInt8) ∉ line)
    (reads : Reads tail text) : Reads (written line ++ tail) (withoutReturns line ++ text) := by
  induction line with
  | nil => exact reads
  | cons symbol line ih =>
      have later := ih (fun member => inLine (List.mem_cons_of_mem symbol member))
        (fun member => plain (List.mem_cons_of_mem symbol member))
      have noFeed : symbol ≠ 10 := fun same => inLine (same ▸ List.mem_cons_self)
      have noSlash : symbol ≠ 92 := fun same => plain (same ▸ List.mem_cons_self)
      rw [written_cons, withoutReturns, List.filter_cons]
      rcases markupText_cases symbol noFeed with ⟨rfl, text⟩ | ⟨rfl, text⟩ | ⟨rfl, text⟩ | ⟨quote, return_, text⟩
      · rw [text, if_pos (by decide)]
        exact reads_escape [9] rfl (by simp) later
      · rw [text, if_pos (by decide)]
        exact reads_escape [34] rfl (by simp) later
      · rw [text, if_neg (by decide)]
        exact later
      · rw [text, if_pos (by simpa using return_)]
        exact reads_symbol ⟨quote, noFeed, noSlash⟩ later

theorem written_mark (line : Bytes) (inLine : (10 : UInt8) ∉ line) (begins : (written line).head? = some 63) :
    (withoutReturns line).head? = some 63 := by
  induction line with
  | nil => cases begins
  | cons symbol line ih =>
      have noFeed : symbol ≠ 10 := fun same => inLine (same ▸ List.mem_cons_self)
      rw [written_cons] at begins
      rw [withoutReturns, List.filter_cons]
      rcases markupText_cases symbol noFeed with ⟨rfl, text⟩ | ⟨rfl, text⟩ | ⟨rfl, text⟩ | ⟨quote, return_, text⟩
      · rw [text] at begins
        simp at begins
      · rw [text] at begins
        simp at begins
      · rw [text] at begins
        exact ih (fun member => inLine (List.mem_cons_of_mem 13 member)) begins
      · rw [text] at begins
        rw [if_pos (by simpa using return_)]
        exact begins

theorem written_single (line : Bytes) (inLine : (10 : UInt8) ∉ line) (single : SingleMarks (withoutReturns line)) :
    SingleMarks (written line) := by
  induction line with
  | nil => exact .nil
  | cons symbol line ih =>
      have noFeed : symbol ≠ 10 := fun same => inLine (same ▸ List.mem_cons_self)
      have later : (10 : UInt8) ∉ line := fun member => inLine (List.mem_cons_of_mem symbol member)
      rw [withoutReturns, List.filter_cons] at single
      rw [written_cons]
      rcases markupText_cases symbol noFeed with ⟨rfl, text⟩ | ⟨rfl, text⟩ | ⟨rfl, text⟩ | ⟨quote, return_, text⟩
      · rw [if_pos (by decide)] at single
        rw [text]
        exact SingleMarks.append (by decide) (ih later single.tail) (Or.inl (by decide))
      · rw [if_pos (by decide)] at single
        rw [text]
        exact SingleMarks.append (by decide) (ih later single.tail) (Or.inl (by decide))
      · rw [if_neg (by decide)] at single
        rw [text]
        exact ih later single
      · rw [if_pos (by simpa using return_)] at single
        rw [text]
        refine SingleMarks.append (List.isChain_singleton symbol) (ih later single.tail) ?_
        by_contra both
        rw [not_or, not_not, not_not] at both
        have mark : symbol = 63 := Option.some.inj both.1
        exact single.rel_head? (written_mark line later both.2) ⟨mark, rfl⟩

theorem statements_written {line text : Bytes} (tail : Bytes) (inLine : (10 : UInt8) ∉ line)
    (plain : (92 : UInt8) ∉ line) (single : SingleMarks (withoutReturns line))
    (ends : SingleMarks (tail ++ ascii "\";") ∧ (tail ++ ascii "\";").head? ≠ some 63)
    (reads : Reads (tail ++ ascii "\";") text) :
    statements markupBegin (ascii ";") (replaceTrigraphs (outputStatement (written line ++ tail))) =
      some [withoutReturns line ++ text] := by
  have read := reads_written line _ _ inLine plain reads
  have shape : outputStatement (written line ++ tail) = markupBegin ++ (written line ++ (tail ++ ascii "\";")) := by
    simp [outputStatement]
  have marks : SingleMarks (written line ++ (tail ++ ascii "\";")) :=
    (written_single line inLine single).append ends.1 (Or.inr ends.2)
  have all : SingleMarks (markupBegin ++ (written line ++ (tail ++ ascii "\";"))) :=
    SingleMarks.append (by decide) marks (Or.inl (by decide))
  rw [shape, replaceTrigraphs_eq all, statements, if_pos (List.prefix_append _ _), List.drop_left]
  exact read _ (List.suffix_append markupBegin _).length_le

theorem written_eq_nil (line : Bytes) (inLine : (10 : UInt8) ∉ line) :
    written line = [] ↔ withoutReturns line = [] := by
  induction line with
  | nil => exact iff_of_true rfl rfl
  | cons symbol line ih =>
      have later := ih (fun member => inLine (List.mem_cons_of_mem symbol member))
      have noFeed : symbol ≠ 10 := fun same => inLine (same ▸ List.mem_cons_self)
      rw [written_cons, withoutReturns, List.filter_cons]
      rcases markupText_cases symbol noFeed with ⟨rfl, text⟩ | ⟨rfl, text⟩ | ⟨rfl, text⟩ | ⟨quote, return_, text⟩
      · simp [text]
      · simp [text]
      · rw [text, if_neg (by decide)]
        exact later
      · simp [text, return_]

theorem written_head (line rest : Bytes) (inLine : (10 : UInt8) ∉ line) (plain : (92 : UInt8) ∉ line)
    (symbol : UInt8) (begins : written line = 92 :: symbol :: rest) : symbol = 116 ∨ symbol = 34 := by
  induction line with
  | nil => cases begins
  | cons first line ih =>
      have noFeed : first ≠ 10 := fun same => inLine (same ▸ List.mem_cons_self)
      have noSlash : first ≠ 92 := fun same => plain (same ▸ List.mem_cons_self)
      rw [written_cons] at begins
      rcases markupText_cases first noFeed with ⟨rfl, text⟩ | ⟨rfl, text⟩ | ⟨rfl, text⟩ | ⟨quote, return_, text⟩
      · rw [text] at begins
        exact Or.inl (List.cons.inj (List.cons.inj begins).2).1.symm
      · rw [text] at begins
        exact Or.inr (List.cons.inj (List.cons.inj begins).2).1.symm
      · rw [text] at begins
        exact ih (fun member => inLine (List.mem_cons_of_mem 13 member))
          (fun member => plain (List.mem_cons_of_mem 13 member)) begins
      · rw [text] at begins
        exact absurd (List.cons.inj begins).1 noSlash

theorem emptyLiteral_written (line : Bytes) (inLine : (10 : UInt8) ∉ line) (plain : (92 : UInt8) ∉ line) :
    emptyLiteral (written line) = true ↔ withoutReturns line = [] := by
  rw [← written_eq_nil line inLine, emptyLiteral, Bool.or_eq_true, beq_iff_eq, beq_iff_eq, List.map_eq_nil_iff]
  constructor
  · rintro (none | feed)
    · exact none
    · obtain ⟨first, rest, begins, slash, tail⟩ := List.map_eq_cons_iff.mp feed
      obtain ⟨second, others, rfl, letter, _⟩ := List.map_eq_cons_iff.mp tail
      rw [tolower_exact first 92 slash (by decide)] at begins
      rcases written_head line others inLine plain second begins with rfl | rfl
      · exact absurd letter (by decide)
      · exact absurd letter (by decide)
  · exact Or.inl

theorem emptyLiteral_newline (line : Bytes) (inLine : (10 : UInt8) ∉ line) :
    emptyLiteral (written line ++ ascii "\\n") = true ↔ withoutReturns line = [] := by
  have feed : ascii "\\n" = [92, 110] := by decide
  rw [← written_eq_nil line inLine, emptyLiteral, Bool.or_eq_true, beq_iff_eq, beq_iff_eq, List.map_eq_nil_iff, feed]
  constructor
  · rintro (none | feed)
    · exact absurd none (by simp)
    · have length := congrArg List.length feed
      simp only [List.length_map, List.length_append, List.length_cons, List.length_nil] at length
      exact List.eq_nil_of_length_eq_zero (by omega)
  · intro none
    rw [none]
    exact Or.inr (by decide)

end Literal

section Tokens

/-- A token is a single symbol, or made of the symbols of tags. -/
def TagOrSymbol (token : Bytes) : Prop :=
  (∃ symbol, token = [symbol]) ∨ ∀ symbol ∈ token, symbol ∈ ([60, 37, 64, 61, 33, 45, 62] : Bytes)

theorem tagToken_symbols (istr : Bytes) :
    ∀ symbol ∈ (tagToken istr).1, symbol ∈ ([60, 37, 64, 61, 33, 45, 62] : Bytes) := by
  cases istr with
  | nil => simp [tagToken, ascii]
  | cons ch rest =>
      rw [tagToken]
      split
      · next tag => rcases tag with rfl | rfl | rfl <;> simp [ascii]
      · split
        · next tag =>
            split
            · rcases tag with rfl | rfl <;> simp [ascii]
            · rcases tag with rfl | rfl <;> simp [ascii]
        · simp [ascii]

theorem nextToken_shape (pageStream : Bytes) : TagOrSymbol (nextToken pageStream).1 := by
  cases pageStream with
  | nil => exact Or.inr (by simp [nextToken])
  | cons ch rest =>
      rw [nextToken]
      split
      · exact Or.inr (tagToken_symbols rest.tail)
      · split
        · exact Or.inr (by simp [ascii])
        · exact Or.inl ⟨ch, rfl⟩

theorem tokens_shape (fuel : Nat) (pageStream : Bytes) : ∀ token ∈ tokens fuel pageStream, TagOrSymbol token := by
  induction fuel generalizing pageStream with
  | zero => simp [tokens]
  | succ fuel ih =>
      intro token member
      rw [tokens] at member
      split at member
      · cases member
      · rcases List.mem_cons.mp member with rfl | later
        · exact nextToken_shape pageStream
        · exact ih _ token later

theorem TagOrSymbol.written {token : Bytes} (shape : TagOrSymbol token) (inLine : token ≠ [10]) :
    (10 : UInt8) ∉ token ∧ Reader.markupText token = PageCompiler.written token := by
  rcases shape with ⟨symbol, rfl⟩ | tag
  · refine ⟨?_, by simp [PageCompiler.written]⟩
    rw [List.mem_singleton]
    rintro rfl
    exact inLine rfl
  · have plain : ∀ symbol ∈ ([60, 37, 64, 61, 33, 45, 62] : Bytes),
        symbol ≠ 10 ∧ Reader.markupText [symbol] = [symbol] := by
      simp [Reader.markupText]
    refine ⟨fun member => (plain 10 (tag 10 member)).1 rfl, ?_⟩
    have single : PageCompiler.written token = token := by
      rw [PageCompiler.written, List.flatMap_congr (fun symbol member => (plain symbol (tag symbol member)).2)]
      exact List.flatMap_singleton' token
    rw [single]
    have other : ∀ symbol : UInt8, symbol ∉ ([60, 37, 64, 61, 33, 45, 62] : Bytes) → token ≠ [symbol] := by
      rintro symbol foreign_ rfl
      exact foreign_ (tag symbol List.mem_cons_self)
    rw [Reader.markupText, if_neg inLine, if_neg (other 9 (by decide)), if_neg (other 34 (by decide)),
      if_neg (other 13 (by decide))]

end Tokens

section Simulation

theorem program_last (line : Bytes) (inLine : (10 : UInt8) ∉ line) (plain : (92 : UInt8) ∉ line)
    (single : SingleMarks (withoutReturns line)) :
    Program (Segment.statement (written line)).cleaned (markupItems line) := by
  have empty := emptyLiteral_written line inLine plain
  have read := statements_written [] inLine plain single (by decide) reads_end
  rw [List.append_nil, List.append_nil] at read
  rw [markupItems, keptLines_last line inLine, Segment.cleaned]
  by_cases none : withoutReturns line = []
  · rw [if_pos none, if_pos (empty.mpr none)]
    exact .empty
  · rw [if_neg none, if_neg (fun removed => none (empty.mp removed))]
    exact (Statement.say _ _ read).program

theorem program_line (line rest : Bytes) (inLine : (10 : UInt8) ∉ line) (plain : (92 : UInt8) ∉ line)
    (single : SingleMarks (withoutReturns line)) {after : Bytes} {others : List Item}
    (later : Program after (markupItems rest ++ others)) :
    Program ((Segment.statement (written line ++ ascii "\\n")).cleaned ++ after)
      (markupItems (line ++ 10 :: rest) ++ others) := by
  have empty := emptyLiteral_newline line inLine
  have read := statements_written (ascii "\\n") inLine plain single (by decide) reads_newline
  rw [markupItems, keptLines_line line rest inLine, Segment.cleaned]
  by_cases none : withoutReturns line = []
  · rw [if_pos none, if_pos (empty.mpr none)]
    exact later
  · rw [if_neg none, if_neg (fun removed => none (empty.mp removed)), List.map_append, List.append_assoc]
    exact (Statement.say _ _ read).program.append later

section Pieces

variable {location : Location} {segments : Bytes → List Segment} {items : Bytes → List Item}

theorem program_stray (inner : List Bytes) :
    Program (ascii "\n" ++ strayText inner) (strayItems inner) := by
  unfold strayItems
  split
  · next none =>
      rw [none, List.append_nil]
      exact Statement.lineEnd.program
  · exact (Statement.stray _).program

theorem program_attribute (entry : Bytes × Bytes)
    (included : entry.1 = ascii "include.page" → Program ((segments entry.2).flatMap Segment.cleaned) (items entry.2)) :
    Program ((attributeSegments segments entry).flatMap Segment.cleaned) (attributeItems items entry) := by
  unfold attributeSegments attributeItems
  split
  · next page => exact included page
  · split
    · have same := (Statement.includePath entry.2).program
      simpa [Segment.cleaned, ascii] using same
    · split
      · have same := (Statement.includeComponent entry.2).program
        simpa [Segment.cleaned, ascii] using same
      · exact .empty

theorem program_section (inner : List Bytes) (state : ParsingState)
    (included : state = .attr → ∀ entry ∈ attributesIn location (directiveText inner),
      entry.1 = ascii "include.page" → Program ((segments entry.2).flatMap Segment.cleaned) (items entry.2)) :
    Program ((sectionSegments (directiveSegments location segments) inner state).flatMap Segment.cleaned)
      (sectionItems location items inner state) := by
  have stray := program_stray inner
  cases state with
  | block =>
      have same := (Statement.run inner.flatten).program
      simpa [sectionSegments, sectionItems, Segment.cleaned] using same
  | expr =>
      have same := (Statement.print inner.flatten).program
      simpa [sectionSegments, sectionItems, Segment.cleaned, ascii] using same
  | attr =>
      have directive := Program.flatMap (attributesIn location (directiveText inner))
        (fun entry => (attributeSegments segments entry).flatMap Segment.cleaned) (attributeItems items)
        (fun entry member => program_attribute entry (included rfl entry member))
      rw [sectionSegments, List.flatMap_cons, directiveSegments, List.flatMap_assoc]
      exact stray.append directive
  | _ => simpa [sectionSegments, sectionItems, Segment.cleaned] using stray

/-- From inside of an output statement on, the segments of pieces do what the pieces are meant
to do. -/
theorem program_pieces (pieces : List Piece) (line : Bytes) (inLine : (10 : UInt8) ∉ line)
    (plain : (92 : UInt8) ∉ line) (single : SingleMarks (withoutReturns (line ++ (runsOf pieces).1)))
    (singles : ∀ run ∈ (runsOf pieces).2, SingleMarks (withoutReturns run.2.2))
    (markup : ∀ token, .markup token ∈ pieces → TagOrSymbol token ∧ (92 : UInt8) ∉ token)
    (sections : ∀ tag state inner, .section_ tag state inner ∈ pieces →
      Program ((sectionSegments (directiveSegments location segments) inner state).flatMap Segment.cleaned)
        (sectionItems location items inner state)) :
    Program ((assemble (directiveSegments location segments) (written line) pieces).flatMap Segment.cleaned)
      (markupItems (line ++ (runsOf pieces).1) ++ (runsOf pieces).2.flatMap (runItems location items)) := by
  induction pieces generalizing line with
  | nil =>
      have whole : SingleMarks (withoutReturns line) := by simpa [runsOf] using single
      have last := (program_last line inLine plain whole).append Statement.lineEnd.program
      simpa [assemble, runsOf, Segment.cleaned] using last
  | cons piece rest ih =>
      have laterMarkup : ∀ token, .markup token ∈ rest → TagOrSymbol token ∧ (92 : UInt8) ∉ token :=
        fun token member => markup token (List.mem_cons_of_mem piece member)
      have laterSections := fun tag state inner member =>
        sections tag state inner (List.mem_cons_of_mem piece member)
      cases piece with
      | markup token =>
          obtain ⟨shape, noSlash⟩ := markup token List.mem_cons_self
          rw [runsOf] at single singles
          rw [assemble, runsOf]
          split
          · next feed =>
              subst feed
              rw [withoutReturns, List.filter_append] at single
              have after : SingleMarks (withoutReturns (runsOf rest).1) := single.right_of_append.tail
              have later := ih [] (by simp) (by simp) after singles laterMarkup laterSections
              have fed := Statement.lineEnd.program.append later
              exact program_line line (runsOf rest).1 inLine plain single.left_of_append fed
          · next other =>
              obtain ⟨stays, same⟩ := shape.written other
              have later := ih (line ++ token) (by simp [inLine, stays]) (by simp [plain, noSlash])
                (by simpa using single) singles laterMarkup laterSections
              rw [same]
              simpa [written] using later
      | section_ tag state inner =>
          have here := sections tag state inner List.mem_cons_self
          rw [runsOf, List.append_nil] at single
          have later := ih [] (by simp) (by simp) (singles _ List.mem_cons_self)
            (fun run member => singles run (List.mem_cons_of_mem _ member)) laterMarkup laterSections
          have both := (program_last line inLine plain single).append (here.append later)
          rw [assemble, runsOf]
          simpa [runItems, written] using both

end Pieces

theorem commentable_append {front path : Bytes} (plain : (10 : UInt8) ∉ front) (single : SingleMarks front)
    (apart : front.getLast? ≠ some 63) (filled : path ≠ []) (fine : commentable path = true) :
    commentable (front ++ path) = true := by
  have last : (front ++ path).getLast? = path.getLast? := by
    rw [List.getLast?_append, Option.or_of_isSome]
    simpa using filled
  rw [commentable, Bool.and_eq_true, Bool.and_eq_true] at fine ⊢
  obtain ⟨⟨noFeed, goesOn⟩, marks⟩ := fine
  rw [last]
  have clean : (10 : UInt8) ∉ path := by simpa using noFeed
  refine ⟨⟨by simp [plain, clean], goesOn⟩, decide_eq_true ?_⟩
  exact single.append (of_decide_eq_true marks) (Or.inl apart)

theorem program_included {files : Bytes → Option Bytes} {depth : Nat} {location : Location} {entry : Bytes × Bytes}
    (page : entry.1 = ascii "include.page")
    (fine : includedReadable files (readable files depth) location entry = true)
    (parsed : ∀ inner source, readable files depth inner source = true →
      Program ((pageSegments files depth inner source).flatMap Segment.cleaned) (pageItems files depth inner source)) :
    Program ((includedSegments files (pageSegments files depth) location entry.2).flatMap Segment.cleaned)
      (includedItems files (pageItems files depth) location entry.2) := by
  simp only [includedReadable, page, bne_self_eq_false, Bool.false_or, Bool.and_eq_true] at fine
  obtain ⟨named, inside⟩ := fine
  simp only [includedSegments, includedItems]
  have filled : pathToFile location.path ++ ascii "/" ++ entry.2 ≠ [] := by simp [ascii]
  generalize pathToFile location.path ++ ascii "/" ++ entry.2 = path at *
  cases opened : files path with
  | none => exact .empty
  | some source =>
      rw [opened] at inside
      have begins := Statement.comment (ascii "begin include " ++ path)
        (commentable_append (by simp [ascii]) (by decide) (by decide) filled named)
      have ends := Statement.comment (ascii "end include " ++ path)
        (commentable_append (by simp [ascii]) (by decide) (by decide) filled named)
      have whole := begins.program.append ((parsed _ source inside).append ends.program)
      simpa [Segment.cleaned, ascii] using whole

theorem program_page (files : Bytes → Option Bytes) (depth : Nat) (location : Location) (pageStream : Bytes)
    (plain : readable files depth location pageStream = true) :
    Program ((pageSegments files depth location pageStream).flatMap Segment.cleaned)
      (pageItems files depth location pageStream) := by
  induction depth generalizing location pageStream with
  | zero => exact .empty
  | succ depth ih =>
      rw [pageSegments, pageItems]
      rw [readable] at plain
      cases divided : divide none (tokens pageStream.length pageStream) with
      | none => exact .empty
      | some pieces =>
          rw [divided] at plain
          obtain ⟨marks, plain⟩ := Bool.and_eq_true_iff.mp plain
          obtain ⟨single, singles⟩ := Bool.and_eq_true_iff.mp marks
          have each := List.all_eq_true.mp plain
          obtain ⟨same, _⟩ := divide_tokens _ none pieces divided (by simp)
          have shapes : ∀ piece ∈ pieces, ∀ token ∈ piece.tokens, TagOrSymbol token := by
            intro piece member token inside
            apply tokens_shape pageStream.length pageStream
            have read : tokens pageStream.length pageStream = pieces.flatMap Piece.tokens := same
            rw [read]
            exact List.mem_flatMap.mpr ⟨piece, member, inside⟩
          apply program_pieces pieces [] (by simp) (by simp) (of_decide_eq_true single)
            (fun run member => of_decide_eq_true (List.all_eq_true.mp singles run member))
          · intro token member
            refine ⟨shapes _ member token List.mem_cons_self, ?_⟩
            simpa [pieceReadable] using each _ member
          · intro tag state inner member
            apply program_section
            rintro rfl entry asked page
            have fine := each _ member
            exact program_included page (List.all_eq_true.mp fine entry asked) ih

end Simulation

def greeting : Bytes := ascii "a\t\r\n\n<% f(); %>\n<%@include page=\"b\"%>\"<%= x %>"

def greetingFiles (path : Bytes) : Option Bytes := if path = ascii "p//b" then some (ascii "%>\n<%--c--%>") else none

end FastcgiContainer.PageCompiler
