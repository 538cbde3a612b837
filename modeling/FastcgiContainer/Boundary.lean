import FastcgiContainer.CookieRoundTrip

/-! `Parser::getBoundary` over a content type with a list of parameters: it looks at
the first parameter only, and takes all the text that follows for its value. -/

namespace FastcgiContainer

open Word (Bytes)
open StringUtils (NamedValue)

namespace Range

theorem sublist_trim (symbols range : Bytes) (listed : symbols.Sublist range)
    (solid : ∀ symbol ∈ symbols, isspace symbol = false) : symbols.Sublist (trim range) := by
  have kept (text : Bytes) : (text.dropWhile isspace).filter (fun symbol => !isspace symbol) =
      text.filter (fun symbol => !isspace symbol) := by
    have blank : (text.takeWhile isspace).filter (fun symbol => !isspace symbol) = [] := by
      rw [List.filter_eq_nil_iff]
      intro symbol member
      simp [List.mem_takeWhile_imp member]
    conv => rhs; rw [← @List.takeWhile_append_dropWhile _ isspace text]
    rw [List.filter_append, blank, List.nil_append]
  have same : (trim range).filter (fun symbol => !isspace symbol) =
      range.filter (fun symbol => !isspace symbol) := by
    rw [trim, List.rdropWhile, List.filter_reverse, kept, List.filter_reverse, List.reverse_reverse,
      kept]
  have front := listed.filter (fun symbol => !isspace symbol)
  rw [← same, List.filter_eq_self.mpr (by
    intro symbol member
    simp [solid symbol member])] at front
  exact front.trans List.filter_sublist

theorem mem_split_tail (delim symbol : UInt8) (range : Bytes)
    (order : [delim, symbol].Sublist range) : symbol ∈ (split range [delim]).2.2 := by
  have present : delim ∈ range := order.subset (by simp)
  obtain ⟨front, back, rfl, fresh⟩ := List.eq_append_cons_of_mem present
  rw [split_symbol front delim back fresh]
  obtain ⟨first, second, same, before, after⟩ := List.sublist_append_iff.mp order
  cases first with
  | nil =>
      rw [List.nil_append] at same
      rw [← same] at after
      exact (List.cons_sublist_cons.mp after).subset (by simp)
  | cons head rest =>
      obtain ⟨rfl, _⟩ := List.cons.inj same
      exact absurd (before.subset (by simp)) fresh

end Range

namespace Parser

def parameterText (parameter : NamedValue) : Bytes :=
  ascii "; " ++ (parameter.1 ++ 61 :: parameter.2)

def multipartType (parameters : List NamedValue) : Bytes :=
  ascii "multipart/form-data" ++ parameters.flatMap parameterText

def boundaryParameter (name value : Bytes) (enquoted : Bool) : NamedValue :=
  (name, if enquoted then 34 :: (value ++ [34]) else value)

def PlainValue (value : Bytes) : Prop :=
  ∀ symbol ∈ value, symbol ≠ 59 ∧ symbol ≠ 34 ∧ isspace symbol = false

instance (value : Bytes) : Decidable (PlainValue value) :=
  inferInstanceAs (Decidable (∀ symbol ∈ value, _))

def readBoundary (tail : Bytes) : Except Exn Bytes :=
  if strncasecmp (ascii "boundary") tail then
    let boundary := Range.trim (Range.split tail [61]).2.2
    if !boundary.isEmpty && Range.startsWith boundary [34] then
      if boundary.length < 2 || !Range.endsWith boundary [34] then
        .error (.runtimeError "incomplete boundary quotation")
      else .ok (ascii "--" ++ Range.trimn boundary 1 1)
    else .ok (ascii "--" ++ boundary)
  else .ok []

theorem getBoundary_multipart (rest : Bytes) :
    getBoundary (ascii "multipart/form-data" ++ 59 :: rest) = readBoundary (Range.trim rest) := by
  simp only [getBoundary, readBoundary, Range.splitChar_eq_split,
    Range.split_symbol (ascii "multipart/form-data") 59 rest (by decide)]

theorem enquoted_shape (text : Bytes) (front : Range.startsWith text [34] = true)
    (back : Range.endsWith text [34] = true) (long : ¬ text.length < 2) :
    ∃ middle, text = 34 :: (middle ++ [34]) := by
  simp only [Range.startsWith, Range.endsWith, Bool.and_eq_true, decide_eq_true_eq] at front back
  obtain ⟨rest, rfl⟩ : [34] <+: text := front.2 ▸ List.take_prefix _ _
  have ends : [34] <:+ 34 :: rest := back.2 ▸ List.drop_suffix _ _
  rcases List.suffix_cons_iff.mp ends with same | inner
  · obtain rfl := (List.cons.inj same).2
    exact absurd (by decide) long
  · obtain ⟨middle, rfl⟩ := inner
    exact ⟨middle, rfl⟩

theorem readBoundary_semicolon (tail result : Bytes) (order : [61, 59].Sublist tail)
    (done : readBoundary tail = .ok result) : result = [] ∨ 59 ∈ result := by
  have behind := Range.mem_split_tail 61 59 tail order
  have kept : 59 ∈ Range.trim (Range.split tail [61]).2.2 :=
    List.singleton_sublist.mp (Range.sublist_trim [59] _ (List.singleton_sublist.mpr behind) (by decide +kernel))
  unfold readBoundary at done
  split at done
  · right
    generalize Range.trim (Range.split tail [61]).2.2 = boundary at kept done
    simp only at done
    split at done
    · next starts =>
        split at done
        · cases done
        · next ends =>
            simp only [Bool.or_eq_true, decide_eq_true_eq, Bool.not_eq_true', not_or,
              Bool.not_eq_false] at ends
            simp only [Bool.and_eq_true] at starts
            obtain ⟨middle, rfl⟩ := enquoted_shape boundary starts.2 ends.2 ends.1
            rw [show Range.trimn (34 :: (middle ++ [34])) 1 1 = middle by simp [Range.trimn]] at done
            have inner : 59 ∈ middle := by simpa using kept
            rw [← Except.ok.inj done]
            exact List.mem_append_right _ inner
    · rw [← Except.ok.inj done]
      exact List.mem_append_right _ kept
  · exact Or.inl (Except.ok.inj done).symm

theorem readBoundary_alone (name value : Bytes) (enquoted : Bool)
    (named : name.map tolower = ascii "boundary") (plain : PlainValue value) :
    readBoundary (name ++ 61 :: (boundaryParameter name value enquoted).2) =
      .ok (ascii "--" ++ value) := by
  have width : (ascii "boundary").length = name.length := by rw [← named, List.length_map]
  have fresh : (61 : UInt8) ∉ name := by
    intro member
    have other := List.mem_map_of_mem (f := tolower) member
    rw [named] at other
    revert other
    decide
  have matched : strncasecmp (ascii "boundary")
      (name ++ 61 :: (boundaryParameter name value enquoted).2) = true := by
    rw [strncasecmp, decide_eq_true_eq, width, List.take_left, named]
    rfl
  have solid : ∀ symbol ∈ value, isspace symbol = false := fun symbol member => (plain symbol member).2.2
  simp only [readBoundary, matched, if_true, Range.split_symbol name 61 _ fresh]
  cases enquoted with
  | true =>
      have whole : Range.trim (34 :: (value ++ [34])) = 34 :: (value ++ [34]) := by
        apply Range.trim_eq_self
        · simp [isspace]
        · rw [← List.cons_append, List.getLast?_concat]
          simp [isspace]
      have ends : Range.endsWith (34 :: (value ++ [34])) [34] = true := by
        simp [Range.endsWith]
      have inner : Range.trimn (34 :: (value ++ [34])) 1 1 = value := by simp [Range.trimn]
      simp only [boundaryParameter, if_true, whole, ends, inner]
      simp [Range.startsWith]
  | false =>
      have whole : Range.trim value = value := by
        apply Range.trim_eq_self
        · intro symbol first
          exact solid symbol (List.mem_of_head? first)
        · intro symbol last
          exact solid symbol (List.mem_of_getLast? last)
      have bare : Range.startsWith value [34] = false := by
        cases value with
        | nil => rfl
        | cons head rest =>
            have other := (plain head (by simp)).2.1
            simp [Range.startsWith, other]
      simp only [boundaryParameter, Bool.false_eq_true, if_false, whole, bare, Bool.and_false]

theorem trim_boundaryParameter (name value : Bytes) (enquoted : Bool)
    (named : name.map tolower = ascii "boundary") (plain : PlainValue value) :
    Range.trim (32 :: (name ++ 61 :: (boundaryParameter name value enquoted).2)) =
      name ++ 61 :: (boundaryParameter name value enquoted).2 := by
  have padded : Range.trim (32 :: (name ++ 61 :: (boundaryParameter name value enquoted).2)) =
      Range.trim (name ++ 61 :: (boundaryParameter name value enquoted).2) := by
    rw [Range.trim, List.dropWhile_cons_of_pos (by decide)]
    rfl
  rw [padded]
  apply Range.trim_eq_self
  · cases name with
    | nil => cases named
    | cons head rest =>
        have first : tolower head = 98 := (List.cons.inj named).1
        intro symbol same
        obtain rfl : head = symbol := by simpa using same
        cases blank : isspace head with
        | false => rfl
        | true =>
            simp only [isspace, tolower] at blank first
            grind
  · rw [List.getLast?_append_of_ne_nil _ (List.cons_ne_nil _ _)]
    cases enquoted with
    | true =>
        have last : (61 :: (boundaryParameter name value true).2).getLast? = some 34 :=
          @List.getLast?_concat _ (61 :: 34 :: value) 34
        rw [last]
        simp [isspace]
    | false =>
        intro symbol last
        rcases List.mem_cons.mp (List.mem_of_getLast? last) with rfl | member
        · rfl
        · exact (plain symbol member).2.2

theorem parameters_order (first second : NamedValue) (rest : List NamedValue) :
    [61, 59].Sublist ((first :: second :: rest).flatMap parameterText).tail := by
  have shape : ((first :: second :: rest).flatMap parameterText).tail =
      32 :: first.1 ++ (61 :: first.2 ++ (59 :: 32 :: (second.1 ++ 61 :: second.2) ++
        rest.flatMap parameterText)) := by
    simp [parameterText, ascii]
  rw [shape]
  have semicolon : [59].Sublist (59 :: 32 :: (second.1 ++ 61 :: second.2) ++
      rest.flatMap parameterText) := by
    exact List.singleton_sublist.mpr (by simp)
  have equals : [61].Sublist (61 :: first.2) := List.singleton_sublist.mpr (by simp)
  exact (equals.append semicolon).trans (List.sublist_append_right _ _)

/-- The boundary is found exactly if no other parameter stands beside it. -/
theorem getBoundary_iff_alone (before after : List NamedValue) (name value : Bytes) (enquoted : Bool)
    (named : name.map tolower = ascii "boundary") (plain : PlainValue value) :
    getBoundary (multipartType (before ++ boundaryParameter name value enquoted :: after)) =
        .ok (ascii "--" ++ value) ↔ before = [] ∧ after = [] := by
  have text (parameters : List NamedValue) (filled : parameters ≠ []) :
      multipartType parameters =
        ascii "multipart/form-data" ++ 59 :: (parameters.flatMap parameterText).tail := by
    cases parameters with
    | nil => exact absurd rfl filled
    | cons first rest => simp [multipartType, parameterText, ascii]
  have filled : before ++ boundaryParameter name value enquoted :: after ≠ [] := by simp
  rw [text _ filled, getBoundary_multipart]
  constructor
  · intro found
    by_contra several
    have order : [61, 59].Sublist
        ((before ++ boundaryParameter name value enquoted :: after).flatMap parameterText).tail := by
      match before, after with
      | [], [] => exact absurd ⟨rfl, rfl⟩ several
      | [], second :: rest => exact parameters_order _ second rest
      | [first], after => exact parameters_order first _ after
      | first :: second :: rest, after => exact parameters_order first second _
    rcases readBoundary_semicolon _ _ (Range.sublist_trim _ _ order (by decide +kernel)) found with none | inside
    · simp [ascii] at none
    · rcases List.mem_append.mp inside with marker | member
      · revert marker
        decide
      · exact (plain 59 member).1 rfl
  · rintro ⟨rfl, rfl⟩
    have alone : ([] ++ [boundaryParameter name value enquoted]).flatMap parameterText =
        59 :: 32 :: (name ++ 61 :: (boundaryParameter name value enquoted).2) := by
      simp [parameterText, ascii, boundaryParameter]
    rw [alone, List.tail_cons, trim_boundaryParameter name value enquoted named plain]
    exact readBoundary_alone name value enquoted named plain

theorem getBoundary_iff_alone_quoted :
    getBoundary (multipartType ([] ++ boundaryParameter (ascii "Boundary") (ascii "x=1") true :: [])) =
      .ok (ascii "--" ++ ascii "x=1") :=
  (getBoundary_iff_alone [] [] (ascii "Boundary") (ascii "x=1") true (by decide +kernel) (by decide +kernel)).mpr
    ⟨rfl, rfl⟩

/-- A character set before the boundary hides it; behind it, it becomes part of it. -/
theorem getBoundary_beside_charset :
    getBoundary (ascii "multipart/form-data; charset=utf-8; boundary=x") = .ok [] ∧
      getBoundary (ascii "multipart/form-data; boundary=x; charset=utf-8") =
        .ok (ascii "--x; charset=utf-8") ∧
      getBoundary (ascii "multipart/form-data; boundary=\"x\"; charset=utf-8") =
        .error (.runtimeError "incomplete boundary quotation") := by
  decide +kernel

end Parser

end FastcgiContainer
