import FastcgiContainer.Directives
import FastcgiContainer.Acyclic

/-! Pages that include pages. Nothing in `include` looks at the files that are being read, so a
page that includes itself is read again, under a longer path each time, until the path cannot be
opened any more. -/

namespace FastcgiContainer.PageCompiler

open Word (Bytes)
open Relation (TransGen)

section Turn

theorem attributeLoop_turn (basename : Bytes) (fuel : Nat) (istr : Bytes) :
    (∀ (σ : Type) (location : Location) (handle : Bytes → Bytes → σ → Except PageError σ) (page : σ),
      attributeLoop location handle basename (fuel + 1) istr page = .ok page) ∨
    (∃ text, ∀ (σ : Type) (location : Location) (handle : Bytes → Bytes → σ → Except PageError σ) (page : σ),
      attributeLoop location handle basename (fuel + 1) istr page = .error (badSyntax location text)) ∨
    ∃ name value rest, ∀ (σ : Type) (location : Location) (handle : Bytes → Bytes → σ → Except PageError σ)
      (page : σ), attributeLoop location handle basename (fuel + 1) istr page =
        handle name value page >>= attributeLoop location handle basename fuel rest := by
  by_cases ended : istr.isEmpty = true
  · left
    intro σ location handle page
    rw [attributeLoop, if_pos ended]
  · right
    simp only [attributeLoop, ended, Bool.false_eq_true, if_false]
    cases equals : (istr.dropWhile isalnum).dropWhile isspace with
    | nil => exact Or.inl ⟨_, fun σ location handle page => rfl⟩
    | cons sign after =>
        by_cases assigned : sign = 61
        · subst assigned
          cases quoted : after.dropWhile isspace with
          | nil =>
              left
              refine ⟨"'\"' or ''' expected", fun σ location handle page => ?_⟩
              simp only [quoted]
          | cons quote text =>
              by_cases known : quote = 34 ∨ quote = 39
              · cases closed : text.dropWhile (fun symbol => symbol != quote) with
                | nil =>
                    left
                    refine ⟨if quote = 34 then "'\"' expected " else "''' expected ", fun σ location handle page => ?_⟩
                    simp only [quoted, known, if_true, closed]
                | cons last rest =>
                    right
                    refine ⟨basename ++ ascii "." ++ istr.takeWhile isalnum,
                      text.takeWhile (fun symbol => symbol != quote), rest.dropWhile isspace, ?_⟩
                    intro σ location handle page
                    simp only [quoted, known, if_true, closed]
                    cases handle (basename ++ ascii "." ++ istr.takeWhile isalnum)
                        (text.takeWhile (fun symbol => symbol != quote)) page with
                    | error exn => rfl
                    | ok middle => rfl
              · left
                refine ⟨"'\"' or ''' expected", fun σ location handle page => ?_⟩
                simp only [quoted, known, if_false]
        · left
          refine ⟨"'=' expected ", fun σ location handle page => ?_⟩
          split
          · next other same =>
              exact absurd (List.cons.inj same).1 assigned
          · rfl

end Turn

def unended {α : Type} : Except PageError α → Bool
  | .error exn => exn == .endless
  | .ok _ => false

theorem unended_bind {α β : Type} {run : Except PageError α} {act : α → Except PageError β} :
    unended (run >>= act) = true ↔
      unended run = true ∨ ∃ middle, run = .ok middle ∧ unended (act middle) = true := by
  cases run with
  | error exn =>
      constructor
      · exact Or.inl
      · rintro (here | ⟨_, wrong, _⟩)
        · exact here
        · cases wrong
  | ok middle =>
      constructor
      · exact fun later => Or.inr ⟨middle, rfl, later⟩
      · rintro (wrong | ⟨_, same, later⟩)
        · cases wrong
        · cases same
          exact later

section Asks

def stopAt (wanted path : Bytes) (page : Page) : Except PageError Page :=
  if path = wanted then .error .endless else .ok page

/-- `parse` gets to a directive that includes a path, if the files before it are included. -/
def asks (pageStream wanted : Bytes) : Bool :=
  unended (parse (stopAt wanted) ⟨[], []⟩ pageStream Page.empty)

def Follows {α β : Type} (alike : α → β → Prop) (run : Except PageError α) (probe : Except PageError β) : Prop :=
  unended probe = true ∨ ∀ next, run = .ok next → ∃ after, probe = .ok after ∧ alike next after

variable {include_ : Bytes → Page → Except PageError Page} {location place : Location}

theorem handleAttribute_cases (name value : Bytes) :
    (∃ effect : Page → Page, ∀ (include_ : Bytes → Page → Except PageError Page) page,
      handleAttribute include_ name value page = .ok (effect page)) ∨
    ∀ (include_ : Bytes → Page → Except PageError Page) page,
      handleAttribute include_ name value page = include_ value page := by
  by_cases page_ : name = ascii "include.page"
  · exact Or.inr (fun _ _ => if_pos page_)
  · left
    simp only [handleAttribute, page_, if_false]
    split_ifs <;> exact ⟨_, fun _ _ => rfl⟩

theorem attributeLoop_follows (basename : Bytes) (fuel : Nat) (istr wanted : Bytes) (page other : Page) :
    Follows (fun _ _ => True) (attributeLoop location (handleAttribute include_) basename fuel istr page)
      (attributeLoop place (handleAttribute (stopAt wanted)) basename fuel istr other) := by
  induction fuel generalizing istr page other with
  | zero => exact Or.inr (fun _ _ => ⟨other, rfl, trivial⟩)
  | succ fuel ih =>
      rcases attributeLoop_turn basename fuel istr with ended | ⟨text, wrong⟩ | ⟨name, value, rest, goesOn⟩
      · rw [ended, ended]
        exact Or.inr (fun _ _ => ⟨other, rfl, trivial⟩)
      · rw [wrong]
        exact Or.inr (fun _ done => by cases done)
      · rw [goesOn, goesOn]
        rcases handleAttribute_cases name value with ⟨effect, plain⟩ | includes
        · rw [plain, plain]
          exact ih rest (effect page) (effect other)
        · rw [includes, includes, stopAt]
          split
          · exact Or.inl rfl
          · cases included : include_ value page with
            | error exn => exact Or.inr (fun _ done => by cases done)
            | ok middle => exact ih rest middle other

theorem attributeLoop_asks (basename : Bytes) (fuel : Nat) (istr : Bytes) (page : Page)
    (never : unended (attributeLoop location (handleAttribute include_) basename fuel istr page) = true) :
    ∃ wanted middle, unended (include_ wanted middle) = true ∧ ∀ place other,
      unended (attributeLoop place (handleAttribute (stopAt wanted)) basename fuel istr other) = true := by
  induction fuel generalizing istr page with
  | zero => cases never
  | succ fuel ih =>
      rcases attributeLoop_turn basename fuel istr with ended | ⟨text, wrong⟩ | ⟨name, value, rest, goesOn⟩
      · rw [ended] at never
        cases never
      · rw [wrong] at never
        cases never
      · rw [goesOn, unended_bind] at never
        rcases handleAttribute_cases name value with ⟨effect, plain⟩ | includes
        · rw [plain] at never
          rcases never with wrong | ⟨_, same, later⟩
          · cases wrong
          · cases same
            obtain ⟨wanted, middle, here, probe⟩ := ih rest (effect page) later
            refine ⟨wanted, middle, here, fun place other => ?_⟩
            rw [goesOn, plain]
            exact probe place (effect other)
        · rw [includes] at never
          rcases never with here | ⟨next, _, later⟩
          · refine ⟨value, page, here, fun place other => ?_⟩
            rw [goesOn, includes, stopAt, if_pos rfl]
            rfl
          · obtain ⟨wanted, middle, here, probe⟩ := ih rest next later
            refine ⟨wanted, middle, here, fun place other => ?_⟩
            rw [goesOn, includes, stopAt, unended_bind]
            split
            · exact Or.inl rfl
            · exact Or.inr ⟨other, rfl, probe place other⟩

def Reader.Alike (reader other : Reader) : Prop := reader.state = other.state ∧ reader.attrs = other.attrs

theorem Reader.Alike.enter {reader other : Reader} (alike : reader.Alike other) (state : ParsingState) :
    (reader.enter state).Alike (other.enter state) := by
  cases state with
  | attr => exact ⟨rfl, rfl⟩
  | _ => exact ⟨rfl, alike.2⟩

theorem Reader.Alike.text {reader other : Reader} (alike : reader.Alike other) (token : Bytes) :
    (reader.text token).Alike (other.text token) := by
  refine ⟨?_, ?_⟩
  · rw [text_state, text_state]
    exact alike.1
  · unfold Reader.text
    rw [← alike.1]
    cases reader.state with
    | attr => exact congrArg (· ++ token) alike.2
    | _ => exact alike.2

theorem step_plain {reader other : Reader} (alike : reader.Alike other) (token : Bytes)
    (plain : reader.state ≠ .attr ∨ token ≠ closingTag) :
    ∃ next after, next.Alike after ∧
      (∀ include_ location, reader.step include_ location token = .ok next) ∧
      ∀ include_ location, other.step include_ location token = .ok after := by
  unfold Reader.step
  cases opens token with
  | some state =>
      simp only [← alike.1]
      split
      · exact ⟨_, _, alike.enter state, fun _ _ => rfl, fun _ _ => rfl⟩
      · exact ⟨reader.write token, other.write token, alike, fun _ _ => rfl, fun _ _ => rfl⟩
  | none =>
      simp only
      split
      · next closes =>
          have elsewhere := plain.resolve_right (fun goesOn => goesOn closes)
          unfold Reader.close
          rw [← alike.1]
          cases state : reader.state with
          | attr => exact absurd state elsewhere
          | markup => exact ⟨reader.write closingTag, other.write closingTag, alike, fun _ _ => rfl, fun _ _ => rfl⟩
          | expr =>
              exact ⟨{ (reader.write exprEnd).write markupBegin with state := .markup },
                { (other.write exprEnd).write markupBegin with state := .markup }, ⟨rfl, alike.2⟩,
                fun _ _ => rfl, fun _ _ => rfl⟩
          | _ =>
              exact ⟨{ reader.write markupBegin with state := .markup },
                { other.write markupBegin with state := .markup }, ⟨rfl, alike.2⟩, fun _ _ => rfl, fun _ _ => rfl⟩
      · exact ⟨_, _, alike.text token, fun _ _ => rfl, fun _ _ => rfl⟩

theorem step_follows {reader other : Reader} (alike : reader.Alike other) (token wanted : Bytes) :
    Follows Reader.Alike (reader.step include_ location token) (other.step (stopAt wanted) place token) := by
  by_cases plain : reader.state ≠ .attr ∨ token ≠ closingTag
  · obtain ⟨next, after, same, first, second⟩ := step_plain alike token plain
    rw [first, second]
    right
    intro last done
    cases done
    exact ⟨after, rfl, same⟩
  · simp only [not_or, not_not] at plain
    obtain ⟨inside, rfl⟩ := plain
    rw [step_attributes inside, step_attributes (alike.1.symm.trans inside), ← alike.2]
    rcases attributeLoop_follows _ _ _ wanted reader.page other.page with stops | goesOn
    · exact Or.inl (unended_bind.mpr (Or.inl stops))
    · right
      intro next done
      obtain ⟨page, handled, ended⟩ := bind_eq_ok _ _ _ done
      obtain ⟨last, probe, _⟩ := goesOn page handled
      cases ended
      refine ⟨⟨.markup, [], last.writeHandler markupBegin, other.directives ++ [other.attrs]⟩, ?_, rfl, rfl⟩
      rw [parseAttributes, probe]
      rfl

theorem step_asks {reader : Reader} (token : Bytes)
    (never : unended (reader.step include_ location token) = true) :
    ∃ wanted middle, unended (include_ wanted middle) = true ∧ ∀ place other, reader.Alike other →
      unended (other.step (stopAt wanted) place token) = true := by
  by_cases plain : reader.state ≠ .attr ∨ token ≠ closingTag
  · obtain ⟨_, _, _, first, _⟩ := step_plain ⟨rfl, rfl⟩ token plain
    rw [first] at never
    cases never
  · simp only [not_or, not_not] at plain
    obtain ⟨inside, rfl⟩ := plain
    rw [step_attributes inside, unended_bind] at never
    rcases never with here | ⟨_, _, wrong⟩
    · obtain ⟨wanted, middle, included, probe⟩ := attributeLoop_asks _ _ _ _ here
      refine ⟨wanted, middle, included, fun place other alike => ?_⟩
      rw [step_attributes (alike.1.symm.trans inside), unended_bind, ← alike.2]
      exact Or.inl (probe place other.page)
    · cases wrong

theorem loop_asks {reader : Reader} (list : List Bytes)
    (never : unended (list.foldlM (Reader.step include_ location) reader) = true) :
    ∃ wanted middle, unended (include_ wanted middle) = true ∧ ∀ place other, reader.Alike other →
      unended (list.foldlM (Reader.step (stopAt wanted) place) other) = true := by
  induction list generalizing reader with
  | nil => cases never
  | cons token rest ih =>
      rw [List.foldlM_cons, unended_bind] at never
      rcases never with here | ⟨next, stepped, later⟩
      · obtain ⟨wanted, middle, included, probe⟩ := step_asks token here
        refine ⟨wanted, middle, included, fun place other alike => ?_⟩
        rw [List.foldlM_cons, unended_bind]
        exact Or.inl (probe place other alike)
      · obtain ⟨wanted, middle, included, probe⟩ := ih later
        refine ⟨wanted, middle, included, fun place other alike => ?_⟩
        rw [List.foldlM_cons, unended_bind]
        rcases @step_follows include_ location place reader other alike token wanted with stops | goesOn
        · exact Or.inl stops
        · obtain ⟨after, same, still⟩ := goesOn next stepped
          exact Or.inr ⟨after, same, probe place after still⟩

theorem parse_unended (pageStream : Bytes) (page : Page) :
    unended (parse include_ location pageStream page) =
      unended ((tokens pageStream.length pageStream).foldlM (Reader.step include_ location) (firstReader page)) := by
  rw [parse, loop_eq]
  cases ran : (tokens pageStream.length pageStream).foldlM (Reader.step include_ location) (firstReader page) with
  | error exn =>
      simp only [firstReader] at ran
      rw [ran]
  | ok last =>
      simp only [firstReader] at ran
      rw [ran]
      simp only
      split <;> rfl

theorem parse_asks (pageStream : Bytes) (page : Page)
    (never : unended (parse include_ location pageStream page) = true) :
    ∃ wanted middle, asks pageStream wanted = true ∧ unended (include_ wanted middle) = true := by
  rw [parse_unended] at never
  obtain ⟨wanted, middle, included, probe⟩ := loop_asks _ never
  refine ⟨wanted, middle, ?_, included⟩
  rw [asks, parse_unended]
  exact probe ⟨[], []⟩ (firstReader Page.empty) ⟨rfl, rfl⟩

end Asks

section Stable

/-- More depth changes nothing where there is enough. -/
def Stable {α : Type} (run more : Except PageError α) : Prop := unended run = true ∨ more = run

theorem Stable.bind {α β : Type} {run more : Except PageError α} {act longer : α → Except PageError β}
    (first : Stable run more) (later : ∀ middle, Stable (act middle) (longer middle)) :
    Stable (run >>= act) (more >>= longer) := by
  rcases first with stops | rfl
  · exact Or.inl (unended_bind.mpr (Or.inl stops))
  · cases more with
    | error exn => exact Or.inr rfl
    | ok middle => exact later middle

variable {include_ deeper : Bytes → Page → Except PageError Page} {location : Location}
  (stable : ∀ path page, Stable (include_ path page) (deeper path page))

include stable

theorem attributeLoop_stable (basename : Bytes) (fuel : Nat) (istr : Bytes) (page : Page) :
    Stable (attributeLoop location (handleAttribute include_) basename fuel istr page)
      (attributeLoop location (handleAttribute deeper) basename fuel istr page) := by
  induction fuel generalizing istr page with
  | zero => exact Or.inr rfl
  | succ fuel ih =>
      rcases attributeLoop_turn basename fuel istr with ended | ⟨text, wrong⟩ | ⟨name, value, rest, goesOn⟩
      · rw [ended, ended]
        exact Or.inr rfl
      · rw [wrong, wrong]
        exact Or.inr rfl
      · rw [goesOn, goesOn]
        apply Stable.bind _ (ih rest)
        rcases handleAttribute_cases name value with ⟨effect, plain⟩ | includes
        · rw [plain, plain]
          exact Or.inr rfl
        · rw [includes, includes]
          exact stable value page

theorem step_stable (reader : Reader) (token : Bytes) :
    Stable (reader.step include_ location token) (reader.step deeper location token) := by
  by_cases plain : reader.state ≠ .attr ∨ token ≠ closingTag
  · obtain ⟨_, _, _, same, _⟩ := step_plain ⟨rfl, rfl⟩ token plain
    rw [same, same]
    exact Or.inr rfl
  · simp only [not_or, not_not] at plain
    obtain ⟨inside, rfl⟩ := plain
    rw [step_attributes inside, step_attributes inside]
    exact (attributeLoop_stable stable _ _ _ _).bind (fun _ => Or.inr rfl)

theorem parse_stable (pageStream : Bytes) (page : Page) :
    Stable (parse include_ location pageStream page) (parse deeper location pageStream page) := by
  have loops : ∀ (list : List Bytes) reader, Stable (list.foldlM (Reader.step include_ location) reader)
      (list.foldlM (Reader.step deeper location) reader) := by
    intro list
    induction list with
    | nil => exact fun _ => Or.inr rfl
    | cons token rest ih =>
        intro reader
        rw [List.foldlM_cons, List.foldlM_cons]
        exact (step_stable stable reader token).bind ih
  rcases loops (tokens pageStream.length pageStream) (firstReader page) with stops | same
  · exact Or.inl ((parse_unended pageStream page).trans stops)
  · simp only [firstReader] at same
    exact Or.inr (by rw [parse, parse, loop_eq, loop_eq, same])

end Stable

section Inclusion

theorem includeFile_stable (files : Bytes → Option Bytes)
    (parseFile deeper : Location → Bytes → Page → Except PageError Reader)
    (stable : ∀ location pageStream page, Stable (parseFile location pageStream page) (deeper location pageStream page))
    (location : Location) (path : Bytes) (page : Page) :
    Stable (includeFile files parseFile location path page) (includeFile files deeper location path page) := by
  simp only [includeFile]
  cases files (pathToFile location.path ++ ascii "/" ++ path) with
  | none => exact Or.inr rfl
  | some source =>
      simp only
      rcases stable ⟨pathToFile location.path ++ ascii "/" ++ path, location.path :: location.parents⟩ source
          (page.writeHandler (ascii "\t// begin include " ++ (pathToFile location.path ++ ascii "/" ++ path) ++
            ascii "\n")) with stops | same
      · left
        split
        · next exn failed =>
            rw [failed] at stops
            exact stops
        · next reader parsed =>
            rw [parsed] at stops
            cases stops
      · exact Or.inr (by rw [same])

theorem parsePage_stable (files : Bytes → Option Bytes) (depth more : Nat) (location : Location) (pageStream : Bytes)
    (page : Page) :
    Stable (parsePage files depth location pageStream page) (parsePage files (depth + more) location pageStream page) := by
  induction depth generalizing location pageStream page with
  | zero => exact Or.inl rfl
  | succ depth ih =>
      rw [Nat.succ_add]
      exact parse_stable (includeFile_stable files _ _ ih location) pageStream page

theorem parsePage_asks {files : Bytes → Option Bytes} {depth : Nat} {location : Location} {pageStream : Bytes}
    {page : Page} (never : unended (parsePage files (depth + 1) location pageStream page) = true) :
    ∃ wanted source next, asks pageStream wanted = true ∧
      files (pathToFile location.path ++ ascii "/" ++ wanted) = some source ∧
      unended (parsePage files depth ⟨pathToFile location.path ++ ascii "/" ++ wanted,
        location.path :: location.parents⟩ source next) = true := by
  obtain ⟨wanted, middle, asked, included⟩ := parse_asks _ _ never
  simp only [includeFile] at included
  cases opened : files (pathToFile location.path ++ ascii "/" ++ wanted) with
  | none =>
      rw [opened] at included
      cases included
  | some source =>
      rw [opened] at included
      refine ⟨wanted, source, middle.writeHandler (ascii "\t// begin include " ++
        (pathToFile location.path ++ ascii "/" ++ wanted) ++ ascii "\n"), asked, opened, ?_⟩
      simp only at included
      split at included
      · next exn failed =>
          rw [failed]
          exact included
      · cases included

end Inclusion

section Names

theorem pathToFile_append (front back : Bytes) : pathToFile (front ++ 47 :: back) = front ++ 47 :: pathToFile back := by
  simp only [pathToFile, List.rdropWhile, List.reverse_append, List.reverse_cons, List.append_assoc,
    List.cons_append, List.nil_append]
  rw [List.dropWhile_append]
  split
  · next none =>
      rw [List.isEmpty_iff.mp none, List.dropWhile_cons_of_neg (by decide)]
      simp
  · simp

theorem pathToFile_included (directory wanted : Bytes) :
    (pathToFile (directory ++ ascii "/" ++ wanted)).length = directory.length + 1 + (pathToFile wanted).length ∧
      (pathToFile (directory ++ ascii "/" ++ wanted)).length ≤ (directory ++ ascii "/" ++ wanted).length := by
  have name : directory ++ ascii "/" ++ wanted = directory ++ 47 :: wanted := by simp [ascii]
  constructor
  · rw [name, pathToFile_append, List.length_append, List.length_cons]
    omega
  · exact (List.rdropWhile_prefix _ _).length_le

variable (files : Bytes → Option Bytes) (limit : Nat)
  (pathLimit : ∀ path source, files path = some source → path.length ≤ limit)

include pathLimit

theorem ended_within_limit (depth : Nat) (location : Location) (positive : 0 < depth)
    (deep : limit < (pathToFile location.path).length + depth) (pageStream : Bytes) (page : Page) :
    unended (parsePage files depth location pageStream page) = false := by
  induction depth generalizing location pageStream page with
  | zero => omega
  | succ depth ih =>
      by_contra never
      obtain ⟨wanted, source, next, _, opened, still⟩ := parsePage_asks (Bool.eq_true_of_not_eq_false never)
      have short := pathLimit _ source opened
      obtain ⟨longer, whole⟩ := pathToFile_included (pathToFile location.path) wanted
      have ended := ih ⟨pathToFile location.path ++ ascii "/" ++ wanted, location.path :: location.parents⟩
        (by omega) (by simp only; omega) source next
      rw [ended] at still
      cases still

/-- A file system opens no path beyond some length. So every page is read to an end, also one that
includes itself, and no include calls are inside each other but those which the length allows. -/
theorem inclusion_ends (location : Location) (pageStream : Bytes) (page : Page) :
    ∃ result, unended result = false ∧ ∀ depth, limit < depth →
      parsePage files depth location pageStream page = result := by
  have done := ended_within_limit files limit pathLimit (limit + 1) location (by omega) (by omega) pageStream page
  refine ⟨_, done, fun depth many => ?_⟩
  obtain ⟨more, rfl⟩ := Nat.exists_eq_add_of_le (Nat.succ_le_of_lt many)
  rcases parsePage_stable files (limit + 1) more location pageStream page with stops | same
  · rw [stops] at done
    cases done
  · exact same

end Names

section Itself

/-- The longest path that the system opens. -/
def pathMax : Nat := 4095

/-- A path with one separator where several follow each other, which names the same file. -/
def squeeze : Bytes → Bytes
  | [] => []
  | symbol :: rest => if symbol = 47 ∧ rest.head? = some 47 then squeeze rest else symbol :: squeeze rest

def including (value : UInt8) : Bytes := ascii "<%@include page=\"" ++ [value] ++ ascii "\"%>"

def onePage (path : Bytes) : Option Bytes :=
  if path.length ≤ pathMax ∧ squeeze path = ascii "p/a" then some (including 97) else none

theorem inclusion_ends_one_page :
    onePage (ascii "p//a") = some (ascii "<%@include page=\"a\"%>") ∧
      ∃ result, unended result = false ∧ ∀ depth, pathMax < depth →
        parsePage onePage depth ⟨ascii "p/a", []⟩ (including 97) Page.empty = result := by
  refine ⟨by decide +kernel, ?_⟩
  apply inclusion_ends onePage pathMax
  intro path source found
  unfold onePage at found
  split at found
  · next short => exact short.1
  · cases found

end Itself

section Nesting

variable {α : Type} (resolve : Bytes → Option α) (content : α → Bytes)

/-- A file, found under some path, includes another. -/
def Includes (file other : α) : Prop :=
  ∃ path wanted, resolve path = some file ∧ asks (content file) wanted = true ∧
    resolve (pathToFile path ++ ascii "/" ++ wanted) = some other

def contents (path : Bytes) : Option Bytes := (resolve path).map content

/-- Finitely many pages of which none includes itself, directly or through others, are read
to an end, with no more inclusions inside each other than there are pages. -/
theorem acyclic_inclusion_ends (pages : List α) (finite : ∀ path file, resolve path = some file → file ∈ pages)
    (acyclic : ∀ file, ¬TransGen (Includes resolve content) file file) (path : Bytes) (parents : List Bytes)
    (file : α) (found : resolve path = some file) (page : Page) :
    ∃ result, unended result = false ∧ ∀ depth, pages.length < depth →
      parsePage (contents resolve content) depth ⟨path, parents⟩ (content file) page = result := by
  have sources : ∀ node other, Includes resolve content node other → node ∈ pages := by
    rintro node other ⟨name, _, here, _⟩
    exact finite name node here
  have ends : ∀ depth path parents file page, resolve path = some file →
      Acyclic.rank (Includes resolve content) pages file ≤ depth →
      unended (parsePage (contents resolve content) depth ⟨path, parents⟩ (content file) page) = false := by
    intro depth
    induction depth with
    | zero =>
        intro path parents file page found enough
        rw [Acyclic.rank, if_pos (finite path file found)] at enough
        omega
    | succ depth ih =>
        intro path parents file page found enough
        by_contra never
        obtain ⟨wanted, source, next, asked, read, still⟩ := parsePage_asks (Bool.eq_true_of_not_eq_false never)
        obtain ⟨other, opened, rfl⟩ := Option.map_eq_some_iff.mp read
        have less := Acyclic.rank_lt (Includes resolve content) pages sources acyclic file other
          ⟨path, wanted, found, asked, opened⟩
        rw [ih _ (path :: parents) other next opened (by omega)] at still
        cases still
  have enough : Acyclic.rank (Includes resolve content) pages file ≤ pages.length + 1 := by
    have bound := Acyclic.rank_le (Includes resolve content) pages file
    have size : {other | other ∈ pages}.ncard ≤ pages.length := by
      classical
      rw [← List.coe_toFinset, Set.ncard_coe_finset]
      exact List.toFinset_card_le pages
    omega
  have done := ends (pages.length + 1) path parents file page found enough
  refine ⟨_, done, fun depth many => ?_⟩
  obtain ⟨more, rfl⟩ := Nat.exists_eq_add_of_le many
  rcases parsePage_stable (contents resolve content) (pages.length + 1) more ⟨path, parents⟩ (content file) page
    with stops | same
  · rw [stops] at done
    cases done
  · exact same

theorem squeeze_last (front : Bytes) (symbol : UInt8) : (squeeze (front ++ [symbol])).getLast? = some symbol := by
  induction front with
  | nil => simp [squeeze]
  | cons first rest ih =>
      rw [List.cons_append, squeeze]
      split
      · exact ih
      · cases after : squeeze (rest ++ [symbol]) with
        | nil =>
            rw [after] at ih
            cases ih
        | cons next others =>
            rw [after] at ih
            rw [List.getLast?_cons_cons]
            exact ih

def twoPages (path : Bytes) : Option Bool :=
  if pathMax < path.length then none
  else if squeeze path = ascii "p/a" then some true
  else if squeeze path = ascii "p/b" then some false
  else none

def twoContents (first : Bool) : Bytes := if first then including 98 else ascii "x"

section Including

variable (value : UInt8) (known : value = 97 ∨ value = 98)

include known

theorem including_directive : ∃ directive : WrittenDirective, including value = directive.source [] ∧
    directive.calls = [(ascii "include.page", [value])] := by
  have plain : (34 : UInt8) ∉ [value] := by rcases known with rfl | rfl <;> simp
  have noTag : ∀ tag : Bytes, tag.length = 2 → ¬tag <:+: [value] := by
    intro tag size inside
    have length := inside.length_le
    rw [size, List.length_singleton] at length
    omega
  let page : WrittenAttribute :=
    { name := ascii "page"
      beforeSign := []
      afterSign := []
      quote := 34
      value := [value]
      afterValue := []
      named := by simp [ascii]
      letters := by simp [ascii, isalnum]
      blankBefore := by simp
      blankAfter := by simp
      quoted := Or.inl rfl
      plain
      noOpening := noTag _ rfl
      noClosing := noTag _ rfl
      blankBehind := by simp }
  let directive : WrittenDirective :=
    { front := []
      name := ascii "include"
      gap := [32]
      attributes := [page]
      named := by simp [ascii]
      letters := by simp [ascii, isalnum]
      blankFront := by simp
      blankGap := by simp [isspace]
      separated := by simp }
  refine ⟨directive, ?_, ?_⟩
  · simp [including, directive, page, WrittenDirective.source, WrittenDirective.text, WrittenAttribute.text, ascii]
  · simp [WrittenDirective.calls, directive, page, ascii]

theorem including_unended (include_ : Bytes → Page → Except PageError Page) (location : Location) (page : Page) :
    ∃ next, unended (parse include_ location (including value) page) = unended (include_ [value] next) := by
  obtain ⟨directive, source, calls⟩ := including_directive value known
  refine ⟨(firstReader page).page.writeHandler markupEnd, ?_⟩
  rw [parse_unended, ← loop_eq, source, loop_directive directive location include_ (firstReader page) rfl []
    _ (le_refl _), directive.parseAttributes_text, calls, List.foldlM_cons, handleAttribute, if_pos rfl]
  cases include_ [value] ((firstReader page).page.writeHandler markupEnd) with
  | error exn => rfl
  | ok next => rfl

end Including

theorem including_asks (value : UInt8) (known : value = 97 ∨ value = 98) (wanted : Bytes)
    (asked : asks (including value) wanted = true) : wanted = [value] := by
  obtain ⟨next, same⟩ := including_unended value known (stopAt wanted) ⟨[], []⟩ Page.empty
  rw [asks, same, stopAt] at asked
  by_contra other
  rw [if_neg (Ne.symm other)] at asked
  cases asked

theorem twoPages_includes (file other : Bool) (edge : Includes twoPages twoContents file other) :
    file = true ∧ other = false := by
  obtain ⟨path, wanted, _, asked, opened⟩ := edge
  cases file with
  | false =>
      have none : asks (ascii "x") wanted = false := by
        rw [asks, parse_unended]
        rfl
      rw [twoContents, if_neg (by decide), none] at asked
      cases asked
  | true =>
      refine ⟨rfl, ?_⟩
      obtain rfl := including_asks 98 (Or.inr rfl) wanted asked
      have last := squeeze_last (pathToFile path ++ ascii "/") 98
      unfold twoPages at opened
      split at opened
      · cases opened
      · split at opened
        · next wrong =>
            rw [wrong] at last
            simp [ascii] at last
        · split at opened
          · exact (Option.some.inj opened).symm
          · cases opened

theorem acyclic_inclusion_ends_two_pages :
    twoPages (ascii "p//b") = some false ∧
      ∃ result, unended result = false ∧ ∀ depth, 2 < depth →
        parsePage (contents twoPages twoContents) depth ⟨ascii "p/a", []⟩ (including 98) Page.empty = result := by
  refine ⟨by simp [twoPages, pathMax, squeeze, ascii], ?_⟩
  apply acyclic_inclusion_ends twoPages twoContents [true, false] _ _ (ascii "p/a") [] true
    (by simp [twoPages, pathMax, squeeze, ascii])
  · rintro path (_ | _) _ <;> simp
  · intro file cycle
    obtain ⟨other, first, _⟩ := TransGen.head'_iff.mp cycle
    obtain ⟨before, _, last⟩ := TransGen.tail'_iff.mp cycle
    have starts := (twoPages_includes file other first).1
    rw [(twoPages_includes before file last).2] at starts
    cases starts

end Nesting

end FastcgiContainer.PageCompiler
