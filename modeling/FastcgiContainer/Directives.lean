import FastcgiContainer.PageSections
import FastcgiContainer.Lines

/-! Attribute directives as they are written in a page, and as they are read back: first the
reader takes the page apart into tokens, then the joined tokens are scanned again. -/

namespace FastcgiContainer.PageCompiler

open Word (Bytes)
open Lines (Plain plain_append plain_iff plain_of_absent)
open Range (dropWhile_stop dropWhile_symbol ne_of_absent takeWhile_stop takeWhile_symbol)

section Untagged

/-- No opening and no closing tag begins inside. -/
def Untagged (text : Bytes) : Prop := Plain 60 37 text ∧ Plain 37 62 text

def Neutral (symbol : UInt8) : Prop := symbol ≠ 60 ∧ symbol ≠ 37 ∧ symbol ≠ 62

instance (symbol : UInt8) : Decidable (Neutral symbol) := inferInstanceAs (Decidable (_ ∧ _))

theorem neutral_isspace {symbol : UInt8} (blank : isspace symbol = true) : Neutral symbol := by
  refine ⟨?_, ?_, ?_⟩ <;> rintro rfl <;> revert blank <;> decide

theorem neutral_isalnum {symbol : UInt8} (letter : isalnum symbol = true) : Neutral symbol := by
  refine ⟨?_, ?_, ?_⟩ <;> rintro rfl <;> revert letter <;> decide

theorem isalnum_of_isspace {symbol : UInt8} (blank : isspace symbol = true) : isalnum symbol = false := by
  rw [← Bool.not_eq_true]
  intro letter
  simp only [isspace, isalnum, Bool.or_eq_true, beq_iff_eq, Bool.and_eq_true, decide_eq_true_eq,
    UInt8.le_iff_toNat_le, ← UInt8.toNat_inj, UInt8.toNat_ofNat] at blank letter
  omega

theorem untagged_value {value : Bytes} (noOpening : ¬ascii "<%" <:+: value) (noClosing : ¬ascii "%>" <:+: value) :
    Untagged value :=
  ⟨(plain_iff 60 37 value).mpr noOpening, (plain_iff 37 62 value).mpr noClosing⟩

variable {front back : Bytes} {symbol : UInt8}

theorem Untagged.after_neutral (neutral : ∀ symbol ∈ front, Neutral symbol) (untagged : Untagged back) :
    Untagged (front ++ back) := by
  have opening : (60 : UInt8) ∉ front := fun member => (neutral 60 member).1 rfl
  have closing : (37 : UInt8) ∉ front := fun member => (neutral 37 member).2.1 rfl
  constructor
  · exact (plain_append 60 37 (Or.inl (fun last => opening (List.mem_of_getLast? last)))).mpr
      ⟨plain_of_absent 60 37 opening, untagged.1⟩
  · exact (plain_append 37 62 (Or.inl (fun last => closing (List.mem_of_getLast? last)))).mpr
      ⟨plain_of_absent 37 62 closing, untagged.2⟩

theorem Untagged.before_neutral (untagged : Untagged front) (neutral : Neutral symbol)
    (rest : Untagged (symbol :: back)) : Untagged (front ++ symbol :: back) := by
  have opening : (symbol :: back).head? ≠ some 37 := fun same => neutral.2.1 (Option.some.inj same)
  have closing : (symbol :: back).head? ≠ some 62 := fun same => neutral.2.2 (Option.some.inj same)
  exact ⟨(plain_append 60 37 (Or.inr opening)).mpr ⟨untagged.1, rest.1⟩,
    (plain_append 37 62 (Or.inr closing)).mpr ⟨untagged.2, rest.2⟩⟩

theorem Untagged.tail (untagged : Untagged (symbol :: back)) : Untagged back :=
  ⟨List.IsChain.tail untagged.1, List.IsChain.tail untagged.2⟩

theorem Untagged.nextToken (untagged : Untagged (symbol :: (back ++ [37]))) (rest : Bytes) :
    nextToken (symbol :: (back ++ 37 :: rest)) = ([symbol], back ++ 37 :: rest) := by
  have same : (back ++ 37 :: rest).head? = (back ++ [37]).head? := by cases back <;> rfl
  have opening : ¬(symbol = 60 ∧ (back ++ 37 :: rest).head? = some 37) := by
    rintro ⟨rfl, next⟩
    rw [same] at next
    obtain ⟨more, shape⟩ := List.head?_eq_some_iff.mp next
    rw [shape] at untagged
    exact (List.isChain_cons_cons.mp untagged.1).1 ⟨rfl, rfl⟩
  have closing : ¬(symbol = 37 ∧ (back ++ 37 :: rest).head? = some 62) := by
    rintro ⟨rfl, next⟩
    rw [same] at next
    obtain ⟨more, shape⟩ := List.head?_eq_some_iff.mp next
    rw [shape] at untagged
    exact (List.isChain_cons_cons.mp untagged.2).1 ⟨rfl, rfl⟩
  simp only [PageCompiler.nextToken, opening, closing, if_false]

theorem tokens_untagged (text rest : Bytes) (untagged : Untagged (text ++ [37])) (fuel : Nat) :
    tokens (text.length + fuel) (text ++ 37 :: rest) =
      text.map (fun symbol => [symbol]) ++ tokens fuel (37 :: rest) := by
  induction text with
  | nil => rw [List.length_nil, Nat.zero_add]; rfl
  | cons symbol others ih =>
      have next := untagged.nextToken rest
      have count : (symbol :: others).length + fuel = (others.length + fuel) + 1 := by
        rw [List.length_cons]
        omega
      rw [count, List.cons_append, tokens, next]
      simp only [List.isEmpty_cons, Bool.false_eq_true, if_false, List.map_cons, List.cons_append]
      rw [ih untagged.tail]

theorem tokens_enough (fuel more : Nat) (pageStream : Bytes) (enough : pageStream.length ≤ fuel)
    (plenty : pageStream.length ≤ more) : tokens fuel pageStream = tokens more pageStream := by
  induction fuel generalizing more pageStream with
  | zero =>
      obtain rfl := List.eq_nil_of_length_eq_zero (Nat.le_zero.mp enough)
      cases more <;> rfl
  | succ fuel ih =>
      cases more with
      | zero =>
          obtain rfl := List.eq_nil_of_length_eq_zero (Nat.le_zero.mp plenty)
          rfl
      | succ more =>
          obtain ⟨whole, taken⟩ := nextToken_eq pageStream
          have length := congrArg List.length whole
          rw [List.length_append] at length
          simp only [tokens]
          split
          · rfl
          · next some =>
              have positive := List.length_pos_of_ne_nil (List.isEmpty_eq_false_iff.mp (by simpa using some))
              rw [ih more _ (by omega) (by omega)]

end Untagged

structure WrittenAttribute where
  name : Bytes
  beforeSign : Bytes
  afterSign : Bytes
  quote : UInt8
  value : Bytes
  afterValue : Bytes
  named : name ≠ []
  letters : ∀ symbol ∈ name, isalnum symbol = true
  blankBefore : ∀ symbol ∈ beforeSign, isspace symbol = true
  blankAfter : ∀ symbol ∈ afterSign, isspace symbol = true
  quoted : quote = 34 ∨ quote = 39
  plain : quote ∉ value
  noOpening : ¬ascii "<%" <:+: value
  noClosing : ¬ascii "%>" <:+: value
  blankBehind : ∀ symbol ∈ afterValue, isspace symbol = true

structure WrittenDirective where
  front : Bytes
  name : Bytes
  gap : Bytes
  attributes : List WrittenAttribute
  named : name ≠ []
  letters : ∀ symbol ∈ name, isalnum symbol = true
  blankFront : ∀ symbol ∈ front, isspace symbol = true
  blankGap : ∀ symbol ∈ gap, isspace symbol = true
  separated : gap ≠ []

def WrittenAttribute.text (attr : WrittenAttribute) : Bytes :=
  attr.name ++ (attr.beforeSign ++ 61 :: (attr.afterSign ++ attr.quote ::
    (attr.value ++ attr.quote :: attr.afterValue)))

namespace WrittenDirective

def text (directive : WrittenDirective) : Bytes :=
  directive.front ++ (directive.name ++ (directive.gap ++ directive.attributes.flatMap WrittenAttribute.text))

def source (directive : WrittenDirective) (rest : Bytes) : Bytes :=
  ascii "<%@" ++ (directive.text ++ (ascii "%>" ++ rest))

def calls (directive : WrittenDirective) : List (Bytes × Bytes) :=
  directive.attributes.map (fun attr => (directive.name ++ ascii "." ++ attr.name, attr.value))

end WrittenDirective

section Text

theorem WrittenAttribute.untagged (attr : WrittenAttribute) {rest : Bytes} (untagged : Untagged rest) :
    Untagged (attr.text ++ rest) := by
  have quote : Neutral attr.quote := by
    rcases attr.quoted with same | same <;> rw [same] <;> decide
  have shape : attr.text ++ rest =
      (attr.name ++ attr.beforeSign ++ [61] ++ attr.afterSign ++ [attr.quote]) ++
        (attr.value ++ attr.quote :: (attr.afterValue ++ rest)) := by
    simp [WrittenAttribute.text]
  have behind : Untagged (attr.quote :: (attr.afterValue ++ rest)) := by
    rw [← List.cons_append]
    apply Untagged.after_neutral _ untagged
    intro symbol member
    rcases List.mem_cons.mp member with rfl | blank
    · exact quote
    · exact neutral_isspace (attr.blankBehind symbol blank)
  rw [shape]
  apply Untagged.after_neutral
  · intro symbol member
    simp only [List.mem_append, List.mem_singleton] at member
    rcases member with (((letter | blank) | rfl) | blank) | rfl
    · exact neutral_isalnum (attr.letters symbol letter)
    · exact neutral_isspace (attr.blankBefore symbol blank)
    · decide
    · exact neutral_isspace (attr.blankAfter symbol blank)
    · exact quote
  · exact (untagged_value attr.noOpening attr.noClosing).before_neutral quote behind

theorem untagged_attributes (attributes : List WrittenAttribute) {rest : Bytes} (untagged : Untagged rest) :
    Untagged (attributes.flatMap WrittenAttribute.text ++ rest) := by
  induction attributes with
  | nil => exact untagged
  | cons attr others ih =>
      rw [List.flatMap_cons, List.append_assoc]
      exact attr.untagged ih

theorem WrittenDirective.untagged (directive : WrittenDirective) : Untagged (directive.text ++ [37]) := by
  have shape : directive.text ++ [37] = (directive.front ++ directive.name ++ directive.gap) ++
      (directive.attributes.flatMap WrittenAttribute.text ++ [37]) := by
    simp [WrittenDirective.text]
  rw [shape]
  apply Untagged.after_neutral
  · intro symbol member
    simp only [List.mem_append] at member
    rcases member with (blank | letter) | blank
    · exact neutral_isspace (directive.blankFront symbol blank)
    · exact neutral_isalnum (directive.letters symbol letter)
    · exact neutral_isspace (directive.blankGap symbol blank)
  · exact untagged_attributes _ ⟨List.isChain_singleton 37, List.isChain_singleton 37⟩

theorem WrittenDirective.tokens_source (directive : WrittenDirective) (rest : Bytes) (fuel : Nat)
    (enough : (directive.source rest).length ≤ fuel) : tokens fuel (directive.source rest) =
      (ascii "<%@" :: (directive.text.map (fun symbol => [symbol]) ++ [closingTag])) ++ tokens rest.length rest := by
  have opening : nextToken (directive.source rest) = (ascii "<%@", directive.text ++ 37 :: 62 :: rest) := by
    simp [WrittenDirective.source, nextToken, tagToken, ascii]
  have closing : nextToken (37 :: 62 :: rest) = (closingTag, rest) := by simp [nextToken, closingTag]
  have size : (directive.source rest).length = (directive.text.length + ((rest.length + 3) + 1)) + 1 := by
    simp [WrittenDirective.source, ascii]
    omega
  have tag : (ascii "<%@").isEmpty = false := by simp [ascii]
  have ending : closingTag.isEmpty = false := by simp [closingTag, ascii]
  rw [tokens_enough fuel _ _ enough (le_refl _), size, tokens, opening]
  simp only [tag, Bool.false_eq_true, if_false]
  rw [tokens_untagged directive.text (62 :: rest) directive.untagged, tokens, closing]
  simp only [ending, Bool.false_eq_true, if_false]
  rw [tokens_enough (rest.length + 3) rest.length rest (by omega) (le_refl _)]
  simp

end Text

section Attributes

variable {σ : Type} (location : Location) (handle : Bytes → Bytes → σ → Except PageError σ) (basename : Bytes)

theorem isalnum_blank {blank : Bytes} (white : ∀ symbol ∈ blank, isspace symbol = true) (filled : blank ≠ [])
    (rest : Bytes) : ∀ symbol, (blank ++ rest).head? = some symbol → isalnum symbol = false := by
  intro symbol same
  obtain ⟨first, others, rfl⟩ := List.exists_cons_of_ne_nil filled
  cases same
  exact isalnum_of_isspace (white symbol List.mem_cons_self)

theorem isalnum_behind {blank : Bytes} {last : UInt8} (white : ∀ symbol ∈ blank, isspace symbol = true)
    (stops : isalnum last = false) (rest : Bytes) :
    ∀ symbol, (blank ++ last :: rest).head? = some symbol → isalnum symbol = false := by
  cases blank with
  | nil =>
      intro symbol same
      cases same
      exact stops
  | cons first others => exact isalnum_blank white (List.cons_ne_nil first others) (last :: rest)

theorem isspace_named {name : Bytes} (named : name ≠ []) (letters : ∀ symbol ∈ name, isalnum symbol = true)
    (rest : Bytes) : ∀ symbol, (name ++ rest).head? = some symbol → isspace symbol = false := by
  intro symbol same
  obtain ⟨letter, others, rfl⟩ := List.exists_cons_of_ne_nil named
  cases same
  have known := letters symbol List.mem_cons_self
  rw [← Bool.not_eq_true]
  intro blank
  rw [isalnum_of_isspace blank] at known
  cases known

theorem attributeLoop_attribute (attr : WrittenAttribute) {rest : Bytes}
    (starts : ∀ symbol, rest.head? = some symbol → isspace symbol = false) (fuel : Nat) (state : σ) :
    attributeLoop location handle basename (fuel + 1) (attr.text ++ rest) state =
      handle (basename ++ ascii "." ++ attr.name) attr.value state >>=
        attributeLoop location handle basename fuel rest := by
  have shape : attr.text ++ rest = attr.name ++ (attr.beforeSign ++ 61 :: (attr.afterSign ++ attr.quote ::
      (attr.value ++ attr.quote :: (attr.afterValue ++ rest)))) := by
    simp [WrittenAttribute.text]
  have some : (attr.text ++ rest).isEmpty = false := by simp [WrittenAttribute.text]
  have sign : isalnum 61 = false ∧ isspace 61 = false := by decide
  have quote : isspace attr.quote = false ∧ (attr.quote != attr.quote) = false := by
    refine ⟨?_, by simp⟩
    rcases attr.quoted with same | same <;> rw [same] <;> decide
  have named := isalnum_behind attr.blankBefore sign.1 (attr.afterSign ++ attr.quote ::
    (attr.value ++ attr.quote :: (attr.afterValue ++ rest)))
  have plain := ne_of_absent attr.plain
  have next := dropWhile_stop attr.blankBehind starts
  rw [attributeLoop, if_neg (by rw [some]; decide), shape]
  simp only [takeWhile_stop attr.letters named, dropWhile_stop attr.letters named,
    dropWhile_symbol attr.blankBefore sign.2, dropWhile_symbol attr.blankAfter quote.1, if_pos attr.quoted,
    takeWhile_symbol plain quote.2, dropWhile_symbol plain quote.2, next]
  cases handle (basename ++ ascii "." ++ attr.name) attr.value state with
  | error exn => rfl
  | ok middle => rfl

theorem attributes_start (attributes : List WrittenAttribute) :
    ∀ symbol, (attributes.flatMap WrittenAttribute.text).head? = some symbol → isspace symbol = false := by
  cases attributes with
  | nil =>
      intro symbol none
      cases none
  | cons attr others =>
      rw [List.flatMap_cons, WrittenAttribute.text, List.append_assoc]
      exact isspace_named attr.named attr.letters _

theorem attributeLoop_attributes (attributes : List WrittenAttribute) (fuel : Nat)
    (enough : (attributes.flatMap WrittenAttribute.text).length ≤ fuel) (state : σ) :
    attributeLoop location handle basename fuel (attributes.flatMap WrittenAttribute.text) state =
      attributes.foldlM (fun state attr => handle (basename ++ ascii "." ++ attr.name) attr.value state) state := by
  induction attributes generalizing fuel state with
  | nil => cases fuel <;> rfl
  | cons attr others ih =>
      have filled : 0 < attr.text.length := by
        simp only [WrittenAttribute.text, List.length_append, List.length_cons]
        omega
      rw [List.flatMap_cons, List.length_append] at enough
      obtain ⟨less, rfl⟩ := Nat.exists_eq_add_of_lt (show 0 < fuel by omega)
      rw [List.flatMap_cons, Nat.zero_add,
        attributeLoop_attribute location handle basename attr (attributes_start others), List.foldlM_cons]
      congr 1
      funext middle
      exact ih less (by omega) middle

theorem WrittenDirective.parseAttributes_text (directive : WrittenDirective) (state : σ) :
    parseAttributes location handle directive.text state =
      directive.calls.foldlM (fun state call => handle call.1 call.2 state) state := by
  have spaced := isalnum_blank directive.blankGap directive.separated
    (directive.attributes.flatMap WrittenAttribute.text)
  have front := dropWhile_stop directive.blankFront (isspace_named directive.named directive.letters
    (directive.gap ++ directive.attributes.flatMap WrittenAttribute.text))
  have name := takeWhile_stop directive.letters spaced
  have behindName := dropWhile_stop directive.letters spaced
  have gap := dropWhile_stop directive.blankGap (attributes_start directive.attributes)
  have room : (directive.attributes.flatMap WrittenAttribute.text).length ≤ directive.text.length := by
    simp only [WrittenDirective.text, List.length_append]
    omega
  rw [parseAttributes]
  simp only [WrittenDirective.text] at room ⊢
  simp only [front, name, behindName, gap]
  rw [attributeLoop_attributes location handle directive.name directive.attributes _ room,
    WrittenDirective.calls, List.foldlM_map]

end Attributes

theorem foldlM_collect (calls written : List (Bytes × Bytes)) :
    calls.foldlM (fun list call => collect call.1 call.2 list) written = .ok (written ++ calls) := by
  induction calls generalizing written with
  | nil => simp [pure, Except.pure]
  | cons call others ih => rw [List.foldlM_cons, collect, ok_bind, ih, List.append_assoc, List.singleton_append]

section Reading

variable (directive : WrittenDirective) (location : Location)

theorem loop_directive (include_ : Bytes → Page → Except PageError Page) (reader : Reader)
    (outside : reader.state = .markup) (rest : Bytes) (fuel : Nat) (enough : (directive.source rest).length ≤ fuel) :
    Reader.loop include_ location fuel (directive.source rest) reader =
      parseAttributes location (handleAttribute include_) directive.text (reader.page.writeHandler markupEnd) >>=
        fun page => Reader.loop include_ location rest.length rest
          ⟨.markup, [], page.writeHandler markupBegin, reader.directives ++ [directive.text]⟩ := by
  have tag : opens (ascii "<%@") = some .attr := by simp [opens, openingTags, ascii]
  have unclosed : closingTag ∉ directive.text.map (fun symbol => [symbol]) := by
    simp [closingTag, ascii]
  have plain : ∀ token ∈ directive.text.map (fun symbol => [symbol]), opens token = none := by
    intro token member
    obtain ⟨symbol, _, rfl⟩ := List.mem_map.mp member
    simp [opens, openingTags, ascii]
  have joined_ : (directive.text.map (fun symbol => [symbol])).flatten = directive.text := by
    rw [← List.flatMap_def, List.flatMap_singleton']
  rw [loop_eq, directive.tokens_source rest fuel enough, List.foldlM_append,
    directive_run tag outside unclosed plain, joined_]
  have page : (reader.enter .attr).page = reader.page.writeHandler markupEnd := rfl
  rw [page]
  cases parseAttributes location (handleAttribute include_) directive.text
      (reader.page.writeHandler markupEnd) with
  | error exn => rfl
  | ok next =>
      rw [ok_bind, ok_bind, loop_eq]
      rfl

/-- A directive is read back as it is written: the tokens between its tags are parsed as one
text, the parser calls its handler once for each attribute and throws nothing itself, and the
reader goes on in the markup behind the directive. -/
theorem directive_read_back (include_ : Bytes → Page → Except PageError Page) (reader : Reader)
    (outside : reader.state = .markup) (rest : Bytes) (fuel : Nat) (enough : (directive.source rest).length ≤ fuel) :
    (∀ (σ : Type) (handle : Bytes → Bytes → σ → Except PageError σ) (state : σ),
      parseAttributes location handle directive.text state =
        directive.calls.foldlM (fun state call => handle call.1 call.2 state) state) ∧
    parseAttributes location collect directive.text [] = .ok directive.calls ∧
    Reader.loop include_ location fuel (directive.source rest) reader =
      directive.calls.foldlM (fun page call => handleAttribute include_ call.1 call.2 page)
        (reader.page.writeHandler markupEnd) >>=
        fun page => Reader.loop include_ location rest.length rest
          ⟨.markup, [], page.writeHandler markupBegin, reader.directives ++ [directive.text]⟩ := by
  refine ⟨fun σ handle state => directive.parseAttributes_text location handle state, ?_, ?_⟩
  · rw [directive.parseAttributes_text, foldlM_collect, List.nil_append]
  · rw [loop_directive directive location include_ reader outside rest fuel enough, directive.parseAttributes_text]

def classAttribute : WrittenAttribute where
  name := ascii "class"
  beforeSign := [32]
  afterSign := [32]
  quote := 34
  value := ascii "a<b>"
  afterValue := [32]
  named := by simp [ascii]
  letters := by simp [ascii, isalnum]
  blankBefore := by simp [isspace]
  blankAfter := by simp [isspace]
  quoted := Or.inl rfl
  plain := by simp [ascii]
  noOpening := by simp [ascii, List.infix_cons_iff]
  noClosing := by simp [ascii, List.infix_cons_iff]
  blankBehind := by simp [isspace]

def baseAttribute : WrittenAttribute where
  name := ascii "base"
  beforeSign := []
  afterSign := []
  quote := 39
  value := ascii "B"
  afterValue := []
  named := by simp [ascii]
  letters := by simp [ascii, isalnum]
  blankBefore := by simp [isspace]
  blankAfter := by simp [isspace]
  quoted := Or.inr rfl
  plain := by simp [ascii]
  noOpening := by simp [ascii, List.infix_cons_iff]
  noClosing := by simp [ascii, List.infix_cons_iff]
  blankBehind := by simp [isspace]

def pageDirective : WrittenDirective where
  front := []
  name := ascii "page"
  gap := [32]
  attributes := [classAttribute, baseAttribute]
  named := by simp [ascii]
  letters := by simp [ascii, isalnum]
  blankFront := by simp [isspace]
  blankGap := by simp [isspace]
  separated := by simp

theorem directive_read_back_page :
    pageDirective.source (ascii "\n") = ascii "<%@page class = \"a<b>\" base='B'%>\n" ∧
      pageDirective.calls = [(ascii "page.class", ascii "a<b>"), (ascii "page.base", ascii "B")] ∧
      parseAttributes ⟨ascii "start.cpsp", []⟩ collect pageDirective.text [] = .ok pageDirective.calls ∧
      Reader.loop (fun _ page => .ok page) ⟨ascii "start.cpsp", []⟩ 100 (pageDirective.source (ascii "\n"))
          (firstReader Page.empty) =
        pageDirective.calls.foldlM (fun page call => handleAttribute (fun _ page => .ok page) call.1 call.2 page)
          ((firstReader Page.empty).page.writeHandler markupEnd) >>=
          fun page => Reader.loop (fun _ page => .ok page) ⟨ascii "start.cpsp", []⟩ (ascii "\n").length (ascii "\n")
            ⟨.markup, [], page.writeHandler markupBegin, [pageDirective.text]⟩ := by
  have read := directive_read_back pageDirective ⟨ascii "start.cpsp", []⟩ (fun _ page => .ok page)
    (firstReader Page.empty) rfl (ascii "\n") 100 (by decide +kernel)
  exact ⟨by decide +kernel, by decide +kernel, read.2.1, read.2.2⟩

end Reading

end FastcgiContainer.PageCompiler
