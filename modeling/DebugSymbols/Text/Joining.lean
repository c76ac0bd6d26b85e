import DebugSymbols.Text.Emoji
import DebugSymbols.Text.Width

/-!
The number of terminal columns that a text takes.  Emoji sequences and ligatures take other columns
than their characters one by one.  A text is measured from its end: each character meets what stands
behind it.
-/
namespace DebugSymbols

/-- What the beginning of a text is, as far as a character in front of it may join with it. -/
inductive Joining where
  | nothing
  | skinTone
  | flagLetter
  | flagLetters
  /-- A character or a sequence shown as an emoji. -/
  | emoji
  /-- A zero width joiner and an emoji. -/
  | joiner
  /-- An enclosing keycap, such a joiner and an emoji; likewise for the next four. -/
  | joinedKeycap
  | joinedFlagLetter
  | joinedEvenFlagLetters
  | joinedOddFlagLetters
  /-- The end of a sequence of tags, with the letters and digits that it has so far. -/
  | joinedTags (letters digits : Nat)
  | kiratRaiE
  | kiratRaiAi
  | alef
  | khmerLetter
  | lisuTone
  /-- The letters below join by way of a zero width joiner, which may be there already. -/
  | lamed (joined : Bool)
  | bugineseYa (joined : Bool)
  | bugineseIYa
  | tifinagh (joined : Bool)
  | tifinaghJoiner
  | orkhonI (joined : Bool)
deriving DecidableEq, Repr

namespace Joining

def alefs : Array (Nat × Nat) := #[
  (0x622, 0x623), (0x625, 0x625), (0x627, 0x627), (0x671, 0x673), (0x675, 0x675), (0x773, 0x774),
  (0x870, 0x882)]

def lams : Array (Nat × Nat) := #[
  (0x644, 0x644), (0x6B5, 0x6B8), (0x76A, 0x76A), (0x8A6, 0x8A6), (0x8C7, 0x8C7)]

def khmerLetters : Array (Nat × Nat) := #[
  (0x1780, 0x1782), (0x1784, 0x1787), (0x1789, 0x178C), (0x178E, 0x1793), (0x1795, 0x1798),
  (0x179B, 0x179D), (0x17A0, 0x17A0), (0x17A2, 0x17A2), (0x17A7, 0x17A7), (0x17AB, 0x17AC),
  (0x17AF, 0x17AF)]

/-- Characters of no column that part the Arabic letters around them. -/
def parting : Array (Nat × Nat) := #[
  (0x605, 0x605), (0x890, 0x891), (0x8E2, 0x8E2), (0x9BE, 0x9BE), (0x9D7, 0x9D7), (0xB3E, 0xB3E),
  (0xB57, 0xB57), (0xBBE, 0xBBE), (0xBD7, 0xBD7), (0xCC0, 0xCC0), (0xCC2, 0xCC2), (0xCC7, 0xCC8),
  (0xCCA, 0xCCB), (0xCD5, 0xCD6), (0xD3E, 0xD3E), (0xD4E, 0xD4E), (0xD57, 0xD57), (0xDCF, 0xDCF),
  (0xDDF, 0xDDF), (0x1160, 0x11FF), (0x1715, 0x1715), (0x1734, 0x1734), (0x180E, 0x180E),
  (0x1B35, 0x1B35), (0x1B3B, 0x1B3B), (0x1B3D, 0x1B3D), (0x1B43, 0x1B44), (0x1BAA, 0x1BAA),
  (0x1BF2, 0x1BF3), (0x200C, 0x200D), (0x2065, 0x2069), (0x302E, 0x302F), (0x3164, 0x3164),
  (0xA8FA, 0xA8FA), (0xA953, 0xA953), (0xA9C0, 0xA9C0), (0xD7B0, 0xD7C6), (0xD7CB, 0xD7FB),
  (0xFFA0, 0xFFA0), (0xFFF0, 0xFFF8), (0x111C0, 0x111C0), (0x111C2, 0x111C3), (0x11235, 0x11235),
  (0x1133E, 0x1133E), (0x1134D, 0x1134D), (0x11357, 0x11357), (0x113B8, 0x113B8),
  (0x113C2, 0x113C2), (0x113C5, 0x113C5), (0x113C7, 0x113C9), (0x113CF, 0x113CF),
  (0x113D1, 0x113D1), (0x114B0, 0x114B0), (0x114BD, 0x114BD), (0x115AF, 0x115AF),
  (0x116B6, 0x116B6), (0x11930, 0x11930), (0x1193D, 0x1193D), (0x1193F, 0x1193F),
  (0x11941, 0x11941), (0x11A3A, 0x11A3A), (0x11A84, 0x11A89), (0x11D46, 0x11D46),
  (0x11F02, 0x11F02), (0x11F41, 0x11F41), (0x16FF0, 0x16FF1), (0x1D165, 0x1D166),
  (0x1D16D, 0x1D172), (0xE0000, 0xE0000), (0xE0002, 0xE001F), (0xE0080, 0xE00FF),
  (0xE01F0, 0xE0FFF)]

def hiddenMarks : Array (Nat × Nat) := #[
  (0x34F, 0x34F), (0x17B4, 0x17B5), (0x180B, 0x180D), (0x180F, 0x180F), (0xFE00, 0xFE0F),
  (0xE0100, 0xE01EF)]

def isTifinagh (c : Char) : Bool :=
  (0x2D31 ≤ c.toNat && c.toNat ≤ 0x2D65) || c.toNat == 0x2D6F

def ofChar (c : Char) : Joining :=
  match c.toNat with
  | 0x5DC => .lamed false
  | 0x1A10 => .bugineseYa false
  | 0xA4FC | 0xA4FD => .lisuTone
  | 0x10C03 => .orkhonI false
  | 0x16D67 => .kiratRaiE
  | 0x16D68 => .kiratRaiAi
  | _ =>
    if CharSet.contains alefs c then .alef
    else if CharSet.contains khmerLetters c then .khmerLetter
    else if isTifinagh c then .tifinagh false
    else if Emoji.isFlagLetter c then .flagLetter
    else if Emoji.isSkinTone c then .skinTone
    else if Emoji.isPresented c then .emoji
    else .nothing

/-- A zero width joiner in front of a letter; `none` if the letter forms no ligature in which hidden
marks and joiners may stand. -/
def withJoiner? : Joining → Option Joining
  | khmerLetter => some khmerLetter
  | lisuTone => some lisuTone
  | lamed _ => some (lamed true)
  | bugineseYa _ => some (bugineseYa true)
  | bugineseIYa => some bugineseIYa
  | tifinagh _ => some (tifinagh true)
  | tifinaghJoiner => some tifinaghJoiner
  | orkhonI _ => some (orkhonI true)
  | _ => none

/-- Variation selectors do not part the letters of a ligature. -/
def isLetter (j : Joining) : Bool := j == .alef || j.withJoiner?.isSome

/-- A variation selector and a joiner behind an emoji make it part of a sequence. -/
def takesVariation (j : Joining) : Bool := j == .joiner || j == .joinedKeycap

/-- The columns that a character adds in front of what it joins with, and what the two are to the
next one; `none` if they do not join. -/
def front? (j : Joining) (c : Char) : Option (Int × Joining) :=
  let n := c.toNat
  let when (b : Bool) (columns : Int) (next : Joining) : Option (Int × Joining) :=
    if b then some (columns, next) else none
  match j with
  | nothing => none
  | skinTone =>
    if Emoji.isModifierBase c then some (0, emoji) else when (n == 0x200D) 0 joiner
  | flagLetter => when (Emoji.isFlagLetter c) 1 flagLetters
  | flagLetters =>
    if Emoji.isFlagLetter c then some (1, flagLetters) else when (n == 0x200D) 0 joiner
  | emoji => when (n == 0x200D) 0 joiner
  | joiner =>
    if n = 0x20E3 then some (0, joinedKeycap)
    else if Emoji.isFlagLetter c then some (1, joinedFlagLetter)
    else if Emoji.isSkinTone c then some (0, skinTone)
    else if n = 0xE007F then some (0, joinedTags 0 0)
    else when (Emoji.isPresented c) 0 emoji
  | joinedKeycap => none
  | joinedFlagLetter => when (Emoji.isFlagLetter c) (-1) joinedEvenFlagLetters
  | joinedEvenFlagLetters =>
    if Emoji.isFlagLetter c then some (3, joinedOddFlagLetters) else when (n == 0x200D) 0 joiner
  | joinedOddFlagLetters =>
    if Emoji.isFlagLetter c then some (-1, joinedEvenFlagLetters) else when (n == 0x200D) 0 joiner
  | joinedTags letters digits =>
    if Emoji.isTagLetter c then when (letters < 6 && digits == 0) 0 (joinedTags (letters + 1) 0)
    else if Emoji.isTagDigit c then
      when (letters ≤ 4 && digits < 3) 0 (joinedTags 0 (digits + 1))
    else when (n == 0x1F3F4 && ((3 ≤ letters && digits == 0) || digits == 3)) 0 emoji
  | kiratRaiE =>
    match n with
    | 0x16D63 | 0x16D69 => some (0, nothing)
    | 0x16D67 => some (0, kiratRaiAi)
    | 0x16D68 => some (1, kiratRaiE)
    | _ => none
  | kiratRaiAi => when (n == 0x16D63) 0 nothing
  | alef =>
    if CharSet.contains lams c then some (0, nothing)
    else when (Width.ofChar c == 0 && !CharSet.contains parting c) 0 alef
  | khmerLetter => when (n == 0x17D2) (-1) nothing
  | lisuTone => when (0xA4F8 ≤ n && n ≤ 0xA4FB) 0 nothing
  | lamed joined => when (joined && n == 0x5D0) 0 nothing
  | bugineseYa joined => when (joined && n == 0x1A17) 0 bugineseIYa
  | bugineseIYa => when (n == 0x1A15) 0 nothing
  | tifinagh joined =>
    if n = 0x2D7F then some (1, tifinaghJoiner) else when (joined && isTifinagh c) 0 nothing
  | tifinaghJoiner => when (isTifinagh c) (-1) nothing
  | orkhonI joined => when (joined && n == 0x10C32) 0 nothing

end Joining

/-- Variation selectors with a bearing on the width. -/
inductive VariationSelector where
  | fullWidth
  | text
  | emoji
deriving DecidableEq, Repr

def VariationSelector.ofChar? (c : Char) : Option VariationSelector :=
  match c.toNat with
  | 0xFE01 => some fullWidth
  | 0xFE0E => some text
  | 0xFE0F => some emoji
  | _ => none

/-- The beginning of a text, with the selector in front of it. -/
structure Follower where
  joining : Joining := .nothing
  selector : Option VariationSelector := none
deriving DecidableEq, Repr

namespace Follower

def select (f : Follower) (s : VariationSelector) : Follower :=
  if f.joining.isLetter || (s == .emoji && f.joining.takesVariation) then
    { f with selector := some s }
  else { selector := some s }

/-- The selector turned out to stand behind no character that it applies to. -/
def deselect (f : Follower) : Follower := if f.joining.isLetter then ⟨f.joining, none⟩ else {}

/-- Quotation marks that a variation selector makes as wide as an ideograph. -/
def isQuotationMark (c : Char) : Bool :=
  c == '\u2018' || c == '\u2019' || c == '\u201C' || c == '\u201D'

def join (c : Char) (f : Follower) : Int × Follower :=
  let alone := ((Width.ofChar c : Int), ({ joining := .ofChar c } : Follower))
  let front := ((f.joining.front? c).map fun (columns, j) => (columns, { joining := j })).getD alone
  match f.joining.withJoiner? with
  | some j =>
    if c.toNat = 0x200D then (0, { joining := j })
    else if CharSet.contains Joining.hiddenMarks c then (0, f)
    else front
  | none => front

/-- The emoji selector is settled. -/
def meet (c : Char) (f : Follower) : Int × Follower :=
  if c.toNat ≤ 0xA0 then (1, {})
  else
    match VariationSelector.ofChar? c, f.selector with
    | some s, _ => (0, f.select s)
    | none, some .text => if Emoji.isTextBase c then (1, {}) else join c f.deselect
    | none, some .fullWidth => if isQuotationMark c then (2, {}) else join c f.deselect
    | none, _ => join c f

/-- The columns that a character adds in front of a text, and the beginning of the longer text. -/
def step (c : Char) (f : Follower) : Int × Follower :=
  if f.selector = some .emoji then
    if Emoji.isVariationBase c then
      (if f.joining.takesVariation then 0 else 2, { joining := .emoji })
    else meet c f.deselect
  else meet c f

end Follower

namespace Width

def measure (s : List Char) : Int × Follower :=
  s.foldr (fun c (columns, f) => ((f.step c).1 + columns, (f.step c).2)) (0, {})

def ofText (s : List Char) : Nat := (measure s).1.toNat

end Width

end DebugSymbols
