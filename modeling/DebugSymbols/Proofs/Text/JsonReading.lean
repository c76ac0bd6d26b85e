import DebugSymbols.Text.JsonValue
import Mathlib.Tactic.SplitIfs
import Std.Data.String.ToInt

/-!
A reader of JSON, and that it reads documents back from their text.  The characters are scanned into
lexemes, wherever blanks stand between them.  The lexemes are put together with a stack of the
arrays and objects that are open.
-/
namespace DebugSymbols

namespace JsonValue

/-- Values are handled by what holds of the elements of an array and the members of an object. -/
theorem induction {P : JsonValue → Prop} (null : P null) (bool : ∀ b, P (bool b))
    (number : ∀ n, P (number n)) (string : ∀ s, P (string s))
    (array : ∀ vs, (∀ v ∈ vs, P v) → P (array vs))
    (object : ∀ ms : List (String × JsonValue), (∀ m ∈ ms, P m.2) → P (object ms))
    (v : JsonValue) : P v := by
  refine JsonValue.rec (motive_1 := P) (motive_2 := fun vs => ∀ v ∈ vs, P v)
    (motive_3 := fun ms => ∀ m ∈ ms, P m.2) (motive_4 := fun m => P m.2)
    null bool number string array object ?_ ?_ ?_ ?_ ?_ v
  · exact nofun
  · exact fun v vs hv hvs => List.forall_mem_cons.2 ⟨hv, hvs⟩
  · exact nofun
  · exact fun m ms hm hms => List.forall_mem_cons.2 ⟨hm, hms⟩
  · exact fun name v hv => hv

/-- A part of a text: a bracket, a brace, a comma or a colon, or a value without parts. -/
inductive Lexeme where
  | mark (c : Char)
  | scalar (v : JsonValue)

inductive Place where
  | between
  | word (letters : List Char)
  | text (chars : List Char)
  /-- Behind a backslash. -/
  | escape (chars : List Char)
  /-- Inside the four digits of a character. -/
  | code (chars digits : List Char)

def isBlank (c : Char) : Bool := c == ' ' || c == '\n' || c == '\r' || c == '\t'

def isMark (c : Char) : Bool :=
  c == '[' || c == ']' || c == '\x7b' || c == '\x7d' || c == ',' || c == ':'

def delimits (c : Char) : Bool := isBlank c || isMark c || c == '"'

def ofWord? (letters : List Char) : Option JsonValue :=
  if letters = ['n', 'u', 'l', 'l'] then some null
  else if letters = ['t', 'r', 'u', 'e'] then some (bool true)
  else if letters = ['f', 'a', 'l', 's', 'e'] then some (bool false)
  else (String.ofList letters).toInt?.map number

def unescape? (c : Char) : Option Char :=
  if c = '"' ∨ c = '\\' ∨ c = '/' then some c
  else if c = 'b' then some '\x08'
  else if c = 'f' then some '\x0c'
  else if c = 'n' then some '\n'
  else if c = 'r' then some '\r'
  else if c = 't' then some '\t'
  else none

/-- The character of hexadecimal digits. -/
def ofDigits? (digits : List Char) : Option Char := do
  let n ← digits.foldlM (fun n d => (16 * n + ·) <$> Hexadecimal.digitValue? d) 0
  if n.isValidChar then some (Char.ofNat n) else none

namespace Place

/-- The lexemes that a character completes between lexemes, and where it leads. -/
def enter (c : Char) : List Lexeme × Place :=
  if isBlank c then ([], between)
  else if isMark c then ([.mark c], between)
  else if c = '"' then ([], text [])
  else ([], word [c])

def step? (c : Char) : Place → Option (List Lexeme × Place)
  | between => some (enter c)
  | word letters =>
    if delimits c then
      (fun v => (.scalar v :: (enter c).1, (enter c).2)) <$> ofWord? letters.reverse
    else some ([], word (c :: letters))
  | text chars =>
    if c = '"' then some ([.scalar (string (String.ofList chars.reverse))], between)
    else if c = '\\' then some ([], escape chars)
    else if c.toNat < 0x20 then none
    else some ([], text (c :: chars))
  | escape chars =>
    if c = 'u' then some ([], code chars [])
    else (fun d => ([], text (d :: chars))) <$> unescape? c
  | code chars digits =>
    if digits.length < 3 then some ([], code chars (c :: digits))
    else (fun d => ([], text (d :: chars))) <$> ofDigits? (c :: digits).reverse

def finish? : Place → Option (List Lexeme)
  | between => some []
  | word letters => (fun v => [.scalar v]) <$> ofWord? letters.reverse
  | _ => none

end Place

def scan : Place → List Char → Option (List Lexeme)
  | place, [] => place.finish?
  | place, c :: cs => do
    let (lexemes, next) ← place.step? c
    (lexemes ++ ·) <$> scan next cs

/-- An array or an object that is open, with what it holds so far in reverse. -/
inductive Frame where
  | array (elements : List JsonValue)
  | object (members : List (String × JsonValue)) (name : String)

/-- What a reader has come to, with the arrays and objects that are open from the inside out. -/
inductive Expectation where
  | value (stack : List Frame)
  | elementOrEnd (stack : List Frame)
  | nameOrEnd (stack : List Frame)
  | name (members : List (String × JsonValue)) (stack : List Frame)
  | colon (members : List (String × JsonValue)) (name : String) (stack : List Frame)
  /-- A value has been completed. -/
  | behind (v : JsonValue) (stack : List Frame)

namespace Expectation

def begin? (stack : List Frame) : Lexeme → Option Expectation
  | .scalar v => some (behind v stack)
  | .mark '[' => some (elementOrEnd stack)
  | .mark '\x7b' => some (nameOrEnd stack)
  | _ => none

def step? : Expectation → Lexeme → Option Expectation
  | value stack, lexeme => begin? stack lexeme
  | elementOrEnd stack, .mark ']' => some (behind (array []) stack)
  | elementOrEnd stack, lexeme => begin? (.array [] :: stack) lexeme
  | nameOrEnd stack, .mark '\x7d' => some (behind (object []) stack)
  | nameOrEnd stack, .scalar (string n) => some (colon [] n stack)
  | name members stack, .scalar (string n) => some (colon members n stack)
  | colon members n stack, .mark ':' => some (value (.object members n :: stack))
  | behind v (.array vs :: stack), .mark ',' => some (value (.array (v :: vs) :: stack))
  | behind v (.array vs :: stack), .mark ']' => some (behind (array (v :: vs).reverse) stack)
  | behind v (.object ms n :: stack), .mark ',' => some (name ((n, v) :: ms) stack)
  | behind v (.object ms n :: stack), .mark '\x7d' =>
    some (behind (object ((n, v) :: ms).reverse) stack)
  | _, _ => none

def value? : Expectation → Option JsonValue
  | behind v [] => some v
  | _ => none

end Expectation

def read? (s : String) : Option JsonValue := do
  let lexemes ← scan .between s.toList
  let reached ← lexemes.foldlM Expectation.step? (.value [])
  reached.value?

mutual

def lexemes : JsonValue → List Lexeme
  | array vs => .mark '[' :: [.mark ','].intercalate (elementLexemes vs) ++ [.mark ']']
  | object ms => .mark '\x7b' :: [.mark ','].intercalate (memberLexemes ms) ++ [.mark '\x7d']
  | v => [.scalar v]

def elementLexemes : List JsonValue → List (List Lexeme)
  | [] => []
  | v :: vs => lexemes v :: elementLexemes vs

def memberLexemes : List (String × JsonValue) → List (List Lexeme)
  | [] => []
  | (name, v) :: ms => (.scalar (string name) :: .mark ':' :: lexemes v) :: memberLexemes ms

end

section Scan

variable {place next : Place} {c : Char} {cs rest : List Char} {found : List Lexeme}

theorem scan_cons (h : place.step? c = some (found, next)) :
    scan place (c :: cs) = (found ++ ·) <$> scan next cs := by
  rw [scan, h]
  rfl

theorem scan_cons_single {lexeme : Lexeme} (h : place.step? c = some ([lexeme], next)) :
    scan place (c :: cs) = (lexeme :: ·) <$> scan next cs :=
  scan_cons h

theorem scan_cons_inside (h : place.step? c = some ([], next)) :
    scan place (c :: cs) = scan next cs := by
  rw [scan_cons h]
  exact id_map _

theorem scan_between (c : Char) (cs : List Char) :
    scan .between (c :: cs) = ((Place.enter c).1 ++ ·) <$> scan (Place.enter c).2 cs :=
  scan_cons rfl

theorem scan_code {digits : List Char} (hlength : digits.length = 4) (h : ofDigits? digits = some c)
    (chars : List Char) :
    scan (.code chars []) (digits ++ rest) = scan (.text (c :: chars)) rest := by
  match digits, hlength with
  | [d₁, d₂, d₃, d₄], _ =>
    rw [List.cons_append, scan_cons_inside rfl, List.cons_append, scan_cons_inside rfl,
      List.cons_append, scan_cons_inside rfl, List.cons_append, scan_cons_inside, List.nil_append]
    rw [Place.step?, if_neg (show ¬[d₃, d₂, d₁].length < 3 from Nat.lt_irrefl 3)]
    exact congrArg (Option.map _) h

theorem scan_escapeChar (chars : List Char) (c : Char) :
    scan (.text chars) ((escapeChar c).toList ++ rest) = scan (.text (c :: chars)) rest := by
  have short (e : Char) (he : (Place.escape chars).step? e = some ([], .text (c :: chars))) :
      scan (.text chars) ('\\' :: e :: rest) = scan (.text (c :: chars)) rest := by
    rw [scan_cons_inside rfl, scan_cons_inside he]
  have code (n : Nat) (hn : n < 0x20) : (Hexadecimal.padded 4 n).toList.length = 4 ∧
      ofDigits? (Hexadecimal.padded 4 n).toList = some (Char.ofNat n) := by
    revert n
    decide
  unfold escapeChar
  split_ifs with hquote hbackslash hb hf hn hr ht hcontrol
  · subst c
    exact short '"' rfl
  · subst c
    exact short '\\' rfl
  · subst c
    exact short 'b' rfl
  · subst c
    exact short 'f' rfl
  · subst c
    exact short 'n' rfl
  · subst c
    exact short 'r' rfl
  · subst c
    exact short 't' rfl
  · obtain ⟨hlength, hdigits⟩ := code c.toNat hcontrol
    rw [Char.ofNat_toNat] at hdigits
    rw [String.toList_append, show "\\u".toList = ['\\', 'u'] from rfl, List.append_assoc,
      List.cons_append, scan_cons_inside rfl, List.singleton_append, scan_cons_inside rfl,
      scan_code hlength hdigits]
  · rw [Char.toString_eq_singleton, String.toList_singleton, List.singleton_append,
      scan_cons_inside]
    rw [Place.step?, if_neg hquote, if_neg hbackslash, if_neg hcontrol]

theorem scan_text (chars cs rest : List Char) :
    scan (.text chars) (cs.flatMap (fun c => (escapeChar c).toList) ++ '"' :: rest) =
      (.scalar (string (String.ofList (chars.reverse ++ cs))) :: ·) <$> scan .between rest := by
  induction cs generalizing chars with
  | nil =>
    rw [List.append_nil]
    exact (scan_cons_single rfl : scan (.text chars) ('"' :: rest) = _)
  | cons c cs ih =>
    rw [List.flatMap_cons, List.append_assoc, scan_escapeChar, ih, List.reverse_cons,
      List.append_assoc, List.singleton_append]

theorem scan_quote (s : String) :
    scan .between ((quote s).toList ++ rest) =
      (.scalar (string s) :: ·) <$> scan .between rest := by
  have htext := scan_text [] s.toList rest
  rw [List.reverse_nil, List.nil_append, String.ofList_toList] at htext
  rw [quote, String.toList_append, String.toList_append, String.toList_join, List.flatMap_map,
    List.append_assoc, List.append_assoc]
  exact (scan_cons_inside rfl).trans htext

/-- Behind a word. -/
def Delimited : List Char → Prop
  | [] => True
  | c :: _ => delimits c = true

theorem scan_word_end {letters : List Char} {v : JsonValue} (h : ofWord? letters.reverse = some v)
    (hrest : Delimited rest) :
    scan (.word letters) rest = (.scalar v :: ·) <$> scan .between rest := by
  cases rest with
  | nil => exact congrArg (Option.map _) h
  | cons c cs =>
    have hstep : (Place.word letters).step? c =
        some (.scalar v :: (Place.enter c).1, (Place.enter c).2) := by
      rw [Place.step?, if_pos (show delimits c = true from hrest), h]
      rfl
    rw [scan_cons hstep, scan_between, Functor.map_map]
    rfl

theorem scan_word_letters {letters : List Char} (h : ∀ c ∈ letters, delimits c = false)
    (begun : List Char) :
    scan (.word begun) (letters ++ rest) = scan (.word (letters.reverse ++ begun)) rest := by
  induction letters generalizing begun with
  | nil => rfl
  | cons c letters ih =>
    obtain ⟨hc, hletters⟩ := List.forall_mem_cons.1 h
    rw [List.cons_append, scan_cons_inside, ih hletters, List.reverse_cons, List.append_assoc,
      List.singleton_append]
    rw [Place.step?, if_neg (Bool.eq_false_iff.1 hc)]

theorem scan_word {letters : List Char} {v : JsonValue} (h : ofWord? letters = some v)
    (hne : letters ≠ []) (hletters : ∀ c ∈ letters, delimits c = false) (hrest : Delimited rest) :
    scan .between (letters ++ rest) = (.scalar v :: ·) <$> scan .between rest := by
  obtain ⟨c, cs, rfl⟩ := List.exists_cons_of_ne_nil hne
  obtain ⟨hc, hcs⟩ := List.forall_mem_cons.1 hletters
  have henter : Place.between.step? c = some ([], .word [c]) := by
    simp only [delimits, Bool.or_eq_false_iff, beq_eq_false_iff_ne] at hc
    rw [Place.step?, Place.enter, if_neg (Bool.eq_false_iff.1 hc.1.1),
      if_neg (Bool.eq_false_iff.1 hc.1.2), if_neg hc.2]
  rw [List.cons_append, scan_cons_inside henter, scan_word_letters hcs]
  apply scan_word_end _ hrest
  rwa [List.reverse_append, List.reverse_reverse]

theorem isDigit_or_eq_of_mem (n : Int) (h : c ∈ n.repr.toList) : c.isDigit = true ∨ c = '-' := by
  have digits {m : Nat} (h : c ∈ m.repr.toList) : c.isDigit = true := by
    rw [Nat.repr_eq_ofList_toDigits, String.toList_ofList] at h
    exact Nat.isDigit_of_mem_toDigits (by decide) (by decide) h
  cases n with
  | ofNat m => exact .inl (digits h)
  | negSucc m =>
    rw [Int.repr, String.toList_append, List.mem_append] at h
    exact h.symm.imp digits List.mem_singleton.1

theorem toList_repr_ne_nil (n : Int) : n.repr.toList ≠ [] := by
  cases n with
  | ofNat m =>
    rw [Int.repr, Nat.repr_eq_ofList_toDigits, String.toList_ofList]
    exact Nat.toDigits_ne_nil
  | negSucc m =>
    rw [Int.repr, String.toList_append]
    exact List.cons_ne_nil _ _

theorem delimits_of_mem (n : Int) (h : c ∈ n.repr.toList) : delimits c = false := by
  have hne (d : Char) (hd : ¬(d.isDigit = true ∨ d = '-')) : c ≠ d := by
    rintro rfl
    exact hd (isDigit_or_eq_of_mem n h)
  simp (disch := decide) only [delimits, isBlank, isMark, beq_eq_false_iff_ne.2 (hne _ _),
    Bool.or_false]

theorem ofWord?_number (n : Int) : ofWord? n.repr.toList = some (number n) := by
  have hne (d : Char) (letters : List Char) (hd : ¬(d.isDigit = true ∨ d = '-')) :
      n.repr.toList ≠ d :: letters := by
    intro h
    exact hd (isDigit_or_eq_of_mem n (h ▸ List.mem_cons_self))
  rw [ofWord?, if_neg (hne 'n' _ (by decide)), if_neg (hne 't' _ (by decide)),
    if_neg (hne 'f' _ (by decide)), String.ofList_toList, Int.toInt?_repr]
  rfl

theorem scan_newline (depth : Nat) (rest : List Char) :
    scan .between ((newline depth).toList ++ rest) = scan .between rest := by
  have spaces (n : Nat) : scan .between (List.replicate n ' ' ++ rest) = scan .between rest := by
    induction n with
    | zero => rfl
    | succ n ih => exact (scan_cons_inside rfl).trans ih
  rw [newline, String.toList_append, List.append_assoc]
  refine (scan_cons_inside rfl).trans ?_
  rw [List.append_eq, List.nil_append, String.toList_ofList, spaces]

theorem delimited_newline (depth : Nat) (rest : List Char) :
    Delimited ((newline depth).toList ++ rest) := by
  rw [newline, String.toList_append]
  exact rfl

/-- A text is scanned into lexemes, whatever is behind it that does not go on with its last word. -/
def Scans (text : String) (found : List Lexeme) : Prop :=
  ∀ rest : List Char, Delimited rest →
    scan .between (text.toList ++ rest) = (found ++ ·) <$> scan .between rest

namespace Scans

theorem word {text : String} {v : JsonValue} (h : ofWord? text.toList = some v)
    (hne : text.toList ≠ []) (hletters : text.toList.any delimits = false) :
    Scans text [.scalar v] :=
  fun _ => scan_word h hne fun c hc => Bool.eq_false_iff.2 (List.any_eq_false.1 hletters c hc)

theorem onNewLine {text : String} {found : List Lexeme} (h : Scans text found) (depth : Nat) :
    Scans (newline depth ++ text) found := by
  intro rest hrest
  rw [String.toList_append, List.append_assoc, scan_newline, h rest hrest]

theorem member {text : String} {found : List Lexeme} (h : Scans text found) (depth : Nat)
    (name : String) :
    Scans (newline depth ++ quote name ++ ": " ++ text)
      (.scalar (string name) :: .mark ':' :: found) := by
  intro rest hrest
  rw [String.toList_append, String.toList_append, String.toList_append,
    show ": ".toList = [':', ' '] from rfl, List.append_assoc, List.append_assoc, List.append_assoc,
    scan_newline, scan_quote, List.cons_append, scan_cons_single rfl, List.singleton_append,
    scan_cons_inside rfl, h rest hrest, Functor.map_map, Functor.map_map]
  rfl

theorem intercalate {α : Type} {text : α → String} {found : α → List Lexeme} {as : List α}
    (h : ∀ a ∈ as, Scans (text a) (found a)) :
    Scans (",".intercalate (as.map text)) ([.mark ','].intercalate (as.map found)) := by
  induction as with
  | nil => exact fun _ _ => (id_map _).symm
  | cons a as ih =>
    obtain ⟨ha, has⟩ := List.forall_mem_cons.1 h
    cases as with
    | nil =>
      rw [List.map_singleton, List.map_singleton, String.intercalate_singleton,
        List.intercalate_singleton]
      exact ha
    | cons b as =>
      intro rest hrest
      have hbehind := ih has rest hrest
      rw [List.map_cons, List.map_cons] at hbehind ⊢
      rw [List.map_cons, List.map_cons, String.intercalate_cons_cons, List.intercalate_cons_cons,
        String.toList_append, String.toList_append, show ",".toList = [','] from rfl,
        List.append_assoc, List.append_assoc, List.singleton_append, ha (',' :: _) rfl,
        scan_cons_single rfl, hbehind, Functor.map_map, Functor.map_map]
      simp only [List.append_assoc, List.cons_append, List.nil_append]

theorem empty {text : String} {o c : Char} (htext : text.toList = [o, c])
    (ho : Place.between.step? o = some ([.mark o], .between))
    (hc : Place.between.step? c = some ([.mark c], .between)) :
    Scans text [.mark o, .mark c] := by
  intro rest _
  rw [htext, List.cons_append, scan_cons_single ho, List.singleton_append, scan_cons_single hc,
    Functor.map_map]
  rfl

theorem enclosed {opening closing text : String} {o c : Char} {found : List Lexeme}
    (hopening : opening.toList = [o]) (hclosing : closing.toList = [c])
    (ho : Place.between.step? o = some ([.mark o], .between))
    (hc : Place.between.step? c = some ([.mark c], .between)) (h : Scans text found) (depth : Nat) :
    Scans (opening ++ text ++ newline depth ++ closing) (.mark o :: found ++ [.mark c]) := by
  intro rest hrest
  rw [String.toList_append, String.toList_append, String.toList_append, List.append_assoc,
    List.append_assoc, List.append_assoc, hopening, hclosing, List.singleton_append,
    scan_cons_single ho, h _ (delimited_newline _ _), scan_newline, List.singleton_append,
    scan_cons_single hc, Functor.map_map, Functor.map_map]
  simp only [List.cons_append, List.append_assoc, List.nil_append]

end Scans

theorem prettyElements_eq (depth : Nat) (vs : List JsonValue) :
    prettyElements depth vs = vs.map fun v => newline depth ++ pretty depth v := by
  induction vs with
  | nil => rfl
  | cons v vs ih => rw [prettyElements, ih, List.map_cons]

theorem prettyMembers_eq (depth : Nat) (ms : List (String × JsonValue)) :
    prettyMembers depth ms =
      ms.map fun m => newline depth ++ quote m.1 ++ ": " ++ pretty depth m.2 := by
  induction ms with
  | nil => rfl
  | cons m ms ih => rw [prettyMembers, ih, List.map_cons]

theorem elementLexemes_eq (vs : List JsonValue) : elementLexemes vs = vs.map lexemes := by
  induction vs with
  | nil => rfl
  | cons v vs ih => rw [elementLexemes, ih, List.map_cons]

def lexemesOfMember (m : String × JsonValue) : List Lexeme :=
  .scalar (string m.1) :: .mark ':' :: lexemes m.2

theorem memberLexemes_eq (ms : List (String × JsonValue)) :
    memberLexemes ms = ms.map lexemesOfMember := by
  induction ms with
  | nil => rfl
  | cons m ms ih => rw [memberLexemes, ih, List.map_cons, lexemesOfMember]

/-- The text of a value is scanned into its lexemes. -/
theorem scans_pretty (v : JsonValue) (depth : Nat) : Scans (pretty depth v) (lexemes v) := by
  induction v using JsonValue.induction generalizing depth with
  | null =>
    show Scans "null" [.scalar null]
    exact .word rfl (by decide) rfl
  | bool b =>
    cases b with
    | false =>
      show Scans "false" [.scalar (bool false)]
      exact .word rfl (by decide) rfl
    | true =>
      show Scans "true" [.scalar (bool true)]
      exact .word rfl (by decide) rfl
  | number n =>
    refine .word (ofWord?_number n) (toList_repr_ne_nil n) (List.any_eq_false.2 fun c hc => ?_)
    exact Bool.eq_false_iff.1 (delimits_of_mem n hc)
  | string s => exact fun rest _ => scan_quote s
  | array vs ih =>
    cases vs with
    | nil =>
      show Scans "[]" [.mark '[', .mark ']']
      exact .empty rfl rfl rfl
    | cons v vs =>
      rw [pretty, prettyElements_eq, lexemes, elementLexemes_eq]
      · exact .enclosed rfl rfl rfl rfl (.intercalate fun w hw => (ih w hw _).onNewLine _) depth
      · exact nofun
  | object ms ih =>
    cases ms with
    | nil =>
      show Scans "\x7b\x7d" [.mark '\x7b', .mark '\x7d']
      exact .empty rfl rfl rfl
    | cons m ms =>
      rw [pretty, prettyMembers_eq, lexemes, memberLexemes_eq]
      · exact .enclosed rfl rfl rfl rfl (.intercalate fun w hw => (ih w hw _).member _ w.1) depth
      · exact nofun

end Scan

section Assemble

variable {stack : List Frame}

/-- Reading the lexemes of a value completes it, in whatever arrays and objects it stands. -/
def Assembles (v : JsonValue) : Prop :=
  ∀ stack, (lexemes v).foldlM Expectation.step? (.value stack) = some (.behind v stack)

theorem assembles_scalar {v : JsonValue} (h : lexemes v = [.scalar v]) : Assembles v := by
  intro stack
  rw [h]
  rfl

theorem exists_intercalate_eq_append (separator first : List Lexeme) (others : List (List Lexeme)) :
    ∃ behind, separator.intercalate (first :: others) = first ++ behind := by
  cases others with
  | nil => exact ⟨[], by rw [List.append_nil]; exact List.intercalate_singleton⟩
  | cons second others => exact ⟨_, List.intercalate_cons_cons.trans (List.append_assoc _ _ _)⟩

theorem exists_lexemes_eq_cons (v : JsonValue) :
    ∃ l ls, lexemes v = l :: ls ∧ l ≠ .mark ']' := by
  cases v with
  | array vs => exact ⟨_, _, rfl, fun h => absurd (Lexeme.mark.inj h) (by decide)⟩
  | object ms => exact ⟨_, _, rfl, fun h => absurd (Lexeme.mark.inj h) (by decide)⟩
  | _ => exact ⟨_, _, rfl, nofun⟩

/-- A first element is read as one behind a comma. -/
theorem foldlM_elementOrEnd (v : JsonValue) (behind : List Lexeme) :
    (lexemes v ++ behind).foldlM Expectation.step? (.elementOrEnd stack) =
      (lexemes v ++ behind).foldlM Expectation.step? (.value (.array [] :: stack)) := by
  obtain ⟨l, ls, hlexemes, hl⟩ := exists_lexemes_eq_cons v
  rw [hlexemes, List.cons_append, List.foldlM_cons, List.foldlM_cons, Expectation.step?,
    Expectation.step?]
  exact hl

theorem Assembles.foldlM_append {v : JsonValue} (h : Assembles v) (behind : List Lexeme) :
    (lexemes v ++ behind).foldlM Expectation.step? (.value stack) =
      behind.foldlM Expectation.step? (.behind v stack) := by
  rw [List.foldlM_append, h stack]
  rfl

theorem foldlM_elements {v : JsonValue} {vs : List JsonValue} (h : ∀ w ∈ v :: vs, Assembles w)
    (stack : List Frame) (done : List JsonValue) :
    List.foldlM Expectation.step? (.value (.array done :: stack))
        ([.mark ','].intercalate ((v :: vs).map lexemes) ++ [.mark ']']) =
      some (.behind (array (done.reverse ++ v :: vs)) stack) := by
  induction vs generalizing v done with
  | nil =>
    rw [List.map_singleton, List.intercalate_singleton,
      (List.forall_mem_singleton.1 h).foldlM_append, ← List.reverse_cons]
    rfl
  | cons w ws ih =>
    obtain ⟨hv, hws⟩ := List.forall_mem_cons.1 h
    have hbehind := ih hws (v :: done)
    rw [List.map_cons] at hbehind
    rw [List.map_cons, List.map_cons, List.intercalate_cons_cons, List.append_assoc,
      List.append_assoc, hv.foldlM_append, List.singleton_append, List.foldlM_cons]
    exact hbehind.trans (by rw [List.reverse_cons, List.append_assoc, List.singleton_append])

theorem foldlM_members {m : String × JsonValue} {ms : List (String × JsonValue)}
    (h : ∀ n ∈ m :: ms, Assembles n.2) (stack : List Frame) (done : List (String × JsonValue)) :
    List.foldlM Expectation.step? (.name done stack)
        ([.mark ','].intercalate ((m :: ms).map lexemesOfMember) ++ [.mark '\x7d']) =
      some (.behind (object (done.reverse ++ m :: ms)) stack) := by
  induction ms generalizing m done with
  | nil =>
    rw [List.map_singleton, List.intercalate_singleton, lexemesOfMember, List.cons_append,
      List.cons_append]
    refine ((List.forall_mem_singleton.1 h).foldlM_append _).trans ?_
    rw [← List.reverse_cons]
    rfl
  | cons n ms ih =>
    obtain ⟨hm, hms⟩ := List.forall_mem_cons.1 h
    have hbehind := ih hms (m :: done)
    rw [List.map_cons] at hbehind
    rw [List.map_cons, List.map_cons, List.intercalate_cons_cons, lexemesOfMember,
      List.append_assoc, List.append_assoc, List.cons_append, List.cons_append]
    refine (hm.foldlM_append _).trans ?_
    exact hbehind.trans (by rw [List.reverse_cons, List.append_assoc, List.singleton_append])

theorem assembles (v : JsonValue) : Assembles v := by
  induction v using JsonValue.induction with
  | null => exact assembles_scalar rfl
  | bool b => exact assembles_scalar rfl
  | number n => exact assembles_scalar rfl
  | string s => exact assembles_scalar rfl
  | array vs ih =>
    intro stack
    rw [lexemes, elementLexemes_eq]
    cases vs with
    | nil => rfl
    | cons v vs =>
      have hall := foldlM_elements ih stack []
      rw [List.map_cons] at hall ⊢
      obtain ⟨behind, hbehind⟩ :=
        exists_intercalate_eq_append [.mark ','] (lexemes v) (vs.map lexemes)
      rw [hbehind, List.append_assoc] at hall
      rw [hbehind, List.cons_append, List.append_assoc]
      exact (foldlM_elementOrEnd v _).trans hall
  | object ms ih =>
    intro stack
    rw [lexemes, memberLexemes_eq]
    cases ms with
    | nil => rfl
    | cons m ms =>
      have hall := foldlM_members ih stack []
      rw [List.map_cons] at hall ⊢
      obtain ⟨behind, hbehind⟩ :=
        exists_intercalate_eq_append [.mark ','] (lexemesOfMember m) (ms.map lexemesOfMember)
      rw [hbehind] at hall ⊢
      exact hall

end Assemble

theorem read?_append (v : JsonValue) {behind : String} (hbehind : Delimited behind.toList)
    (hscan : scan .between behind.toList = some []) : read? (v.text ++ behind) = some v := by
  have hlexemes : scan .between (v.text ++ behind).toList = some (lexemes v) := by
    rw [String.toList_append, text, scans_pretty v 0 _ hbehind, hscan]
    exact congrArg some (List.append_nil _)
  rw [read?, hlexemes]
  exact congrArg (fun reached => reached.bind Expectation.value?) (assembles v [])

/-- A document is read back from its text. -/
theorem read?_text (v : JsonValue) : read? v.text = some v := by
  have h := read?_append v (show Delimited "".toList from trivial) rfl
  rwa [String.append_empty] at h

theorem read?_line (v : JsonValue) : read? (v.text ++ "\n") = some v :=
  read?_append v (show Delimited "\n".toList from rfl) rfl

example : read? "\x7b \"a\\u000ab\" : [-7,true] \x7d" =
    some (object [("a\nb", array [number (-7), bool true])]) := by cbv

end JsonValue

end DebugSymbols
