import Mathlib.Data.List.DropRight
import Yunpan.Core.Separator
import Yunpan.Core.Template

/-!
# Desktop entries

The command line of a desktop entry is read in layers.  The lines of the file give a value
to a key, the escape sequences of the value are undone, the result is cut into words, and
percent signs in a word stand for field codes.  What the Desktop Entry Specification leaves
undefined has no result.  Its demands on values that do not change how they are read (ASCII,
no `=` in the name of a program) are not checked.
-/

namespace Yunpan.DesktopEntry

open Yunpan.Separator (splitOnce)
open Yunpan.Template (backtick)

/-! ## The file -/

inductive Line where
  | comment
  | header (name : List Char)
  | entry (key value : List Char)
  deriving DecidableEq

structure Group where
  name : List Char
  entries : List (List Char × List Char)
  deriving DecidableEq

def Group.keys (group : Group) : List (List Char) := group.entries.map Prod.fst

def isKeyChar (c : Char) : Bool := c.isAlphanum || c = '-'

/-- A key may end in a locale between brackets. -/
def isKey (key : List Char) : Bool :=
  let base := key.takeWhile isKeyChar
  let locale := key.dropWhile isKeyChar
  !base.isEmpty &&
    (locale.isEmpty || (locale.head? = some '[' && locale.getLast? = some ']'))

def readLine (line : List Char) : Option Line :=
  if line.all (· = ' ') ∨ line.head? = some '#' then some .comment
  else if line.head? = some '[' then
    let name := line.tail.dropLast
    if line.getLast? = some ']' ∧ '[' ∉ name ∧ ']' ∉ name then some (.header name) else none
  else
    match splitOnce '=' line with
    | some (key, value) =>
        let key := key.rdropWhile (· = ' ')
        if isKey key then some (.entry key (value.dropWhile (· = ' '))) else none
    | none => none

/-- The groups that lines make up; the first argument is the group that is open. -/
def gather : Option Group → List Line → Option (List Group)
  | open_, .comment :: rest => gather open_ rest
  | none, [] => some []
  | some group, [] => some [group]
  | none, .header name :: rest => gather (some ⟨name, []⟩) rest
  | some group, .header name :: rest => (gather (some ⟨name, []⟩) rest).map (group :: ·)
  | none, .entry .. :: _ => none
  | some group, .entry key value :: rest =>
      if (group.entries.lookup key).isSome then none
      else gather (some { group with entries := group.entries ++ [(key, value)] }) rest

def lines (text : List Char) : List (List Char) := text.splitOn '\n'

/-- The first group of a file, which must be the one that all desktop entries have. -/
def mainGroup (text : List Char) : Option Group := do
  let groups ← gather none (← (lines text).mapM readLine)
  match groups with
  | main :: others =>
      if main.name = "Desktop Entry".toList ∧ ((main :: others).map Group.name).Nodup then
        some main
      else none
  | [] => none

/-! ## Strings -/

/-- The character that one stands for behind a backslash. -/
def stringEscape (c : Char) : Option Char :=
  match c with
  | 's' => some ' '
  | 'n' => some '\n'
  | 't' => some '\t'
  | 'r' => some '\r'
  | '\\' => some '\\'
  | _ => none

/-- Undo the escape sequences of a value. -/
def unescape : List Char → Option (List Char)
  | '\\' :: c :: rest => do some ((← stringEscape c) :: (← unescape rest))
  | ['\\'] => none
  | c :: rest => (unescape rest).map (c :: ·)
  | [] => some []

/-! ## Words -/

inductive Word where
  | quoted (text : List Char)
  | bare (text : List Char)
  deriving DecidableEq

/-- The characters that an argument may hold only between quotes. -/
def reserved : List Char :=
  [' ', '\t', '\n', '"', Char.ofNat 39, '\\', '>', '<', '~', '|', '&', ';', '$', '*', '?',
    '#', '(', ')', backtick]

/-- The characters that a quoted argument holds only behind a backslash. -/
def escapable : List Char := ['"', backtick, '$', '\\']

inductive Mode where
  | gap
  | bare (read : List Char)
  | quoted (read : List Char)
  | escaped (read : List Char)
  | closed

/-- Cut a command line into its words.  Whether the characters that a quoted argument should
have escaped are taken as themselves is up to the reader. -/
def words (lenient : Bool) : Mode → List Char → Option (List Word)
  | .gap, [] => some []
  | .gap, c :: rest =>
      if c = ' ' then words lenient .gap rest
      else if c = '"' then words lenient (.quoted []) rest
      else if c ∈ reserved then none
      else words lenient (.bare [c]) rest
  | .bare read, [] => some [.bare read]
  | .bare read, c :: rest =>
      if c = ' ' then (words lenient .gap rest).map (.bare read :: ·)
      else if c ∈ reserved then none
      else words lenient (.bare (read ++ [c])) rest
  | .quoted _, [] => none
  | .quoted read, c :: rest =>
      if c = '"' then (words lenient .closed rest).map (.quoted read :: ·)
      else if c = '\\' then words lenient (.escaped read) rest
      else if c ∈ escapable ∧ lenient = false then none
      else words lenient (.quoted (read ++ [c])) rest
  | .escaped _, [] => none
  | .escaped read, c :: rest =>
      if c ∈ escapable then words lenient (.quoted (read ++ [c])) rest
      else if lenient then words lenient (.quoted (read ++ ['\\', c])) rest
      else none
  | .closed, [] => some []
  | .closed, c :: rest => if c = ' ' then words lenient .gap rest else none

/-! ## Field codes -/

/-- What is up to the program that reads an entry: `words`, and the arguments that a field
code stands for. -/
structure Launcher where
  lenient : Bool
  fieldCode : Char → Option (List (List Char))

/-- The text of a quoted argument, where field codes are undefined. -/
def literal : List Char → Option (List Char)
  | '%' :: '%' :: rest => (literal rest).map ('%' :: ·)
  | c :: rest => if c = '%' then none else (literal rest).map (c :: ·)
  | [] => some []

/-- The arguments of a field code as part of a longer one. -/
def inline : List (List Char) → Option (List Char)
  | [] => some []
  | [text] => some text
  | _ => none

def substitute (launcher : Launcher) : List Char → Option (List Char)
  | '%' :: '%' :: rest => (substitute launcher rest).map ('%' :: ·)
  | '%' :: code :: rest => do
      let text ← inline (← launcher.fieldCode code)
      (substitute launcher rest).map (text ++ ·)
  | ['%'] => none
  | c :: rest => (substitute launcher rest).map (c :: ·)
  | [] => some []

/-- The arguments that a word stands for. -/
def expand (launcher : Launcher) : Word → Option (List (List Char))
  | .quoted text => (literal text).map ([·])
  | .bare ['%', code] => if code = '%' then some [['%']] else launcher.fieldCode code
  | .bare text => (substitute launcher text).map ([·])

/-- The arguments of a value that is a command line. -/
def commandLine (launcher : Launcher) (value : List Char) : Option (List (List Char)) := do
  let line ← unescape value
  let arguments ← (← words launcher.lenient .gap line).mapM (expand launcher)
  some arguments.flatten

/-- The command that an entry has its reader start. -/
def command (launcher : Launcher) (text : List Char) : Option (List (List Char)) := do
  commandLine launcher (← (← mainGroup text).entries.lookup "Exec".toList)

/-! ## What reading takes away -/

/-- A text is read either as itself, every character of it being a plain one, or as a
shorter one. -/
def Undone (plain : Char → Prop) (text value : List Char) : Prop :=
  (value = text ∧ ∀ c ∈ text, plain c) ∨ value.length < text.length

variable {plain : Char → Prop} {text value : List Char} {c : Char}

theorem Undone.length_le (h : Undone plain text value) : value.length ≤ text.length := by
  obtain ⟨rfl, -⟩ | hlt := h
  · exact Nat.le_refl _
  · exact Nat.le_of_lt hlt

theorem Undone.same (h : Undone plain text value) (hle : text.length ≤ value.length) :
    value = text ∧ ∀ c ∈ text, plain c := by
  obtain hsame | hlt := h
  · exact hsame
  · exact absurd hle (Nat.not_le_of_lt hlt)

theorem undone_nil : Undone plain [] [] := Or.inl ⟨rfl, by simp⟩

theorem Undone.cons (h : Undone plain text value) (hc : plain c) :
    Undone plain (c :: text) (c :: value) := by
  obtain ⟨rfl, hplain⟩ | hlt := h
  · exact Or.inl ⟨rfl, List.forall_mem_cons.mpr ⟨hc, hplain⟩⟩
  · exact Or.inr (Nat.succ_lt_succ hlt)

/-- Two characters are read as one. -/
theorem Undone.merge (h : Undone plain text value) (c d e : Char) :
    Undone plain (c :: d :: text) (e :: value) := by
  have hle := h.length_le
  exact Or.inr (Nat.succ_lt_succ (Nat.lt_succ_of_le hle))

/-! ### Strings -/

theorem unescape_cons (hc : c ≠ '\\') (text : List Char) :
    unescape (c :: text) = (unescape text).map (c :: ·) := by
  rw [unescape]
  · rintro _ _ rfl
    exact absurd rfl hc
  · exact fun h => absurd h hc

theorem unescape_of_plain (h : ∀ c ∈ text, c ≠ '\\') : unescape text = some text := by
  induction text with
  | nil => rfl
  | cons c text ih =>
      rw [List.forall_mem_cons] at h
      rw [unescape_cons h.1, ih h.2]
      rfl

/-- A value is undone up to a quote on its own, and what follows is not touched when it has
no backslash. -/
theorem undone_of_unescape {tail line : List Char} (htail : ∀ c ∈ tail, c ≠ '\\')
    (h : unescape (text ++ '"' :: tail) = some line) :
    ∃ value, line = value ++ '"' :: tail ∧ Undone (· ≠ '\\') text value := by
  fun_induction unescape text generalizing line with
  | case1 c rest ih =>
      rw [List.cons_append, List.cons_append, unescape] at h
      obtain ⟨d, -, h⟩ := Option.bind_eq_some_iff.mp h
      obtain ⟨line, hline, heq⟩ := Option.bind_eq_some_iff.mp h
      obtain ⟨value, rfl, hundone⟩ := ih hline
      obtain rfl := Option.some.inj heq
      exact ⟨d :: value, rfl, hundone.merge _ _ _⟩
  | case2 => cases h
  | case3 c rest hpair hlone ih =>
      have hc : c ≠ '\\' := by
        rintro rfl
        cases rest with
        | nil => exact hlone rfl rfl
        | cons d rest => exact hpair d rest rfl rfl
      rw [List.cons_append, unescape_cons hc] at h
      obtain ⟨line, hline, rfl⟩ := Option.map_eq_some_iff.mp h
      obtain ⟨value, rfl, hundone⟩ := ih hline
      exact ⟨c :: value, rfl, hundone.cons hc⟩
  | case4 =>
      have hplain : ∀ c ∈ '"' :: tail, c ≠ '\\' :=
        List.forall_mem_cons.mpr ⟨by decide, htail⟩
      rw [List.nil_append, unescape_of_plain hplain] at h
      obtain rfl := Option.some.inj h
      exact ⟨[], rfl, undone_nil⟩

/-! ### Quoted arguments -/

/-- The characters that a quoted argument may hold as they are. -/
def QuotedChar (lenient : Bool) (c : Char) : Prop :=
  c ≠ '"' ∧ (lenient = true ∨ (c ≠ '$' ∧ c ≠ backtick))

theorem QuotedChar.of_kept {lenient : Bool} (hquote : c ≠ '"')
    (hkept : ¬(c ∈ escapable ∧ lenient = false)) : QuotedChar lenient c := by
  refine ⟨hquote, ?_⟩
  cases lenient with
  | true => exact Or.inl rfl
  | false =>
      have hfree : c ∉ escapable := fun hmem => hkept ⟨hmem, rfl⟩
      simp only [escapable, List.mem_cons, not_or] at hfree
      exact Or.inr ⟨hfree.2.2.1, hfree.2.1⟩

theorem words_quoted_cons {lenient : Bool} (hc : QuotedChar lenient c) (hslash : c ≠ '\\')
    (read rest : List Char) :
    words lenient (.quoted read) (c :: rest) =
      words lenient (.quoted (read ++ [c])) rest := by
  obtain ⟨hquote, hopen⟩ := hc
  have hkept : ¬(c ∈ escapable ∧ lenient = false) := by
    rintro ⟨hmem, rfl⟩
    obtain hlenient | ⟨hdollar, hbacktick⟩ := hopen
    · cases hlenient
    · simp [escapable, hquote, hdollar, hbacktick, hslash] at hmem
  rw [words, if_neg hquote, if_neg hslash, if_neg hkept]

theorem words_of_plain {lenient : Bool} (h : ∀ c ∈ text, QuotedChar lenient c ∧ c ≠ '\\')
    (read rest : List Char) :
    words lenient (.quoted read) (text ++ '"' :: rest) =
      (words lenient .closed rest).map (.quoted (read ++ text) :: ·) := by
  induction text generalizing read with
  | nil => rw [List.nil_append, words, if_pos rfl, List.append_nil]
  | cons c text ih =>
      rw [List.forall_mem_cons] at h
      rw [List.cons_append, words_quoted_cons h.1.1 h.1.2, ih h.2]
      simp

/-- The text behind an opening quote holds a closing one, and what stands between them has
been read as the first word. -/
theorem undone_of_words {lenient : Bool} {result : List Word} (text : List Char) :
    (∀ read, words lenient (.quoted read) text = some result →
      ∃ raw value rest others, text = raw ++ '"' :: rest ∧
        result = .quoted (read ++ value) :: others ∧
        Undone (QuotedChar lenient) raw value) ∧
    (∀ read, words lenient (.escaped read) text = some result →
      ∃ raw value rest others, text = raw ++ '"' :: rest ∧
        result = .quoted (read ++ value) :: others ∧
        Undone (QuotedChar lenient) ('\\' :: raw) value) := by
  induction text with
  | nil => exact ⟨nofun, nofun⟩
  | cons c text ih =>
      obtain ⟨hquoted, hescaped⟩ := ih
      constructor
      · intro read h
        rw [words] at h
        split_ifs at h with hquote hslash hopen
        · obtain ⟨others, -, rfl⟩ := Option.map_eq_some_iff.mp h
          exact ⟨[], [], text, others, by rw [hquote]; rfl, by simp, undone_nil⟩
        · obtain ⟨raw, value, rest, others, rfl, rfl, hundone⟩ := hescaped read h
          exact ⟨c :: raw, value, rest, others, rfl, rfl, hslash ▸ hundone⟩
        · obtain ⟨raw, value, rest, others, rfl, rfl, hundone⟩ := hquoted _ h
          have hc := QuotedChar.of_kept hquote hopen
          exact ⟨c :: raw, c :: value, rest, others, rfl, by simp, hundone.cons hc⟩
      · intro read h
        rw [words] at h
        split_ifs at h with hescape hlenient
        · obtain ⟨raw, value, rest, others, rfl, rfl, hundone⟩ := hquoted _ h
          exact ⟨c :: raw, c :: value, rest, others, rfl, by simp, hundone.merge _ _ _⟩
        · obtain ⟨raw, value, rest, others, rfl, rfl, hundone⟩ := hquoted _ h
          have hquote : c ≠ '"' := fun heq => hescape (heq ▸ List.mem_cons_self)
          have hc : QuotedChar lenient c := ⟨hquote, Or.inl hlenient⟩
          have hslash : QuotedChar lenient '\\' := ⟨by decide, Or.inl hlenient⟩
          exact ⟨c :: raw, '\\' :: c :: value, rest, others, rfl, by simp,
            (hundone.cons hc).cons hslash⟩

/-! ### Field codes -/

theorem literal_cons (hc : c ≠ '%') (text : List Char) :
    literal (c :: text) = (literal text).map (c :: ·) := by
  rw [literal, if_neg hc]
  exact fun _ h => absurd h hc

theorem literal_of_plain (h : ∀ c ∈ text, c ≠ '%') : literal text = some text := by
  induction text with
  | nil => rfl
  | cons c text ih =>
      rw [List.forall_mem_cons] at h
      rw [literal_cons h.1, ih h.2]
      rfl

theorem undone_of_literal (h : literal text = some value) :
    Undone (· ≠ '%') text value := by
  fun_induction literal text generalizing value with
  | case1 rest ih =>
      obtain ⟨value, hvalue, rfl⟩ := Option.map_eq_some_iff.mp h
      exact (ih hvalue).merge _ _ _
  | case2 => cases h
  | case3 c rest _ hc ih =>
      obtain ⟨value, hvalue, rfl⟩ := Option.map_eq_some_iff.mp h
      exact (ih hvalue).cons hc
  | case4 =>
      obtain rfl := Option.some.inj h
      exact undone_nil

/-- The characters that a bare argument may hold as they are. -/
def BareChar (c : Char) : Prop := c ∉ reserved ∧ c ≠ '%'

instance (c : Char) : Decidable (BareChar c) := inferInstanceAs (Decidable (_ ∧ _))

theorem words_bare {lenient : Bool} (h : ∀ c ∈ text, BareChar c) (read : List Char) :
    words lenient (.bare read) text = some [.bare (read ++ text)] := by
  induction text generalizing read with
  | nil => rw [words, List.append_nil]
  | cons c text ih =>
      rw [List.forall_mem_cons] at h
      have hspace : c ≠ ' ' := fun heq => h.1.1 (heq ▸ List.mem_cons_self)
      rw [words, if_neg hspace, if_neg h.1.1, ih h.2]
      simp

theorem substitute_of_plain (launcher : Launcher) (h : ∀ c ∈ text, c ≠ '%') :
    substitute launcher text = some text := by
  induction text with
  | nil => rfl
  | cons c text ih =>
      rw [List.forall_mem_cons] at h
      have hcons : substitute launcher (c :: text) =
          (substitute launcher text).map (c :: ·) := by
        rw [substitute]
        all_goals simp [h.1]
      rw [hcons, ih h.2]
      rfl

theorem expand_bare (launcher : Launcher) (h : ∀ c ∈ text, c ≠ '%') :
    expand launcher (.bare text) = some [text] := by
  rw [expand, substitute_of_plain launcher h]
  · rfl
  · rintro code rfl
    exact h '%' List.mem_cons_self rfl

/-! ## A quoted argument and a bare one -/

/-- The characters that a command line may hold as they are in a quoted argument. -/
def Plain (launcher : Launcher) (c : Char) : Prop :=
  c ≠ '\\' ∧ c ≠ '%' ∧ QuotedChar launcher.lenient c

theorem words_gap_bare {lenient : Bool} {word : List Char} (hword : word ≠ [])
    (h : ∀ c ∈ word, BareChar c) : words lenient .gap word = some [.bare word] := by
  cases word with
  | nil => exact absurd rfl hword
  | cons c word =>
      rw [List.forall_mem_cons] at h
      have hspace : c ≠ ' ' := fun heq => h.1.1 (heq ▸ by decide)
      have hquote : c ≠ '"' := fun heq => h.1.1 (heq ▸ by decide)
      rw [words, if_neg hspace, if_neg hquote, if_neg h.1.1, words_bare h.2]
      rfl

variable {launcher : Launcher} {word : List Char}

theorem commandLine_of_plain (hword : word ≠ []) (hbare : ∀ c ∈ word, BareChar c)
    (h : ∀ c ∈ text, Plain launcher c) :
    commandLine launcher ('"' :: (text ++ '"' :: ' ' :: word)) = some [text, word] := by
  have hplain : ∀ c ∈ '"' :: (text ++ '"' :: ' ' :: word), c ≠ '\\' := by
    intro c hc
    simp only [List.mem_cons, List.mem_append] at hc
    obtain rfl | hc | rfl | rfl | hc := hc
    · decide
    · exact (h c hc).1
    · decide
    · decide
    · rintro rfl
      exact (hbare _ hc).1 (by decide)
  have hquoted : words launcher.lenient .gap ('"' :: (text ++ '"' :: ' ' :: word)) =
      some [.quoted text, .bare word] := by
    rw [words, if_neg (by decide), if_pos rfl,
      words_of_plain fun c hc => ⟨(h c hc).2.2, (h c hc).1⟩, words, if_pos rfl,
      words_gap_bare hword hbare]
    rfl
  have htext : expand launcher (.quoted text) = some [text] := by
    rw [expand, literal_of_plain fun c hc => (h c hc).2.1]
    rfl
  have hlast := expand_bare launcher fun c hc => (hbare c hc).2
  rw [commandLine, unescape_of_plain hplain]
  simp [hquoted, htext, hlast]

/-- The way from a text between quotes to the first argument: each of the three layers keeps
what it is given or makes it shorter, and the word ends at a quote. -/
theorem layers_of_commandLine {argument : List Char} {others : List (List Char)}
    (hbare : ∀ c ∈ word, BareChar c)
    (h : commandLine launcher ('"' :: (text ++ '"' :: ' ' :: word)) =
      some (argument :: others)) :
    ∃ unescaped raw rest unquoted, Undone (· ≠ '\\') text unescaped ∧
      unescaped ++ '"' :: ' ' :: word = raw ++ '"' :: rest ∧
      Undone (QuotedChar launcher.lenient) raw unquoted ∧
      Undone (· ≠ '%') unquoted argument := by
  have htail : ∀ c ∈ ' ' :: word, c ≠ '\\' := by
    refine List.forall_mem_cons.mpr ⟨by decide, ?_⟩
    rintro c hc rfl
    exact (hbare _ hc).1 (by decide)
  obtain ⟨line, hline, h⟩ := Option.bind_eq_some_iff.mp h
  obtain ⟨result, hresult, h⟩ := Option.bind_eq_some_iff.mp h
  obtain ⟨arguments, hexpand, h⟩ := Option.bind_eq_some_iff.mp h
  have hflat := Option.some.inj h
  -- strings
  rw [unescape_cons (by decide)] at hline
  obtain ⟨rest, hrest, rfl⟩ := Option.map_eq_some_iff.mp hline
  obtain ⟨unescaped, rfl, hstring⟩ := undone_of_unescape htail hrest
  -- words
  rw [words, if_neg (by decide), if_pos rfl] at hresult
  obtain ⟨raw, unquoted, rest, more, hsplit, rfl, hquoted⟩ :=
    (undone_of_words _).1 [] hresult
  -- field codes
  rw [List.mapM_cons] at hexpand
  obtain ⟨first, hfirst, hexpand⟩ := Option.bind_eq_some_iff.mp hexpand
  obtain ⟨later, -, hlater⟩ := Option.bind_eq_some_iff.mp hexpand
  obtain rfl := Option.some.inj hlater
  obtain ⟨read, hread, rfl⟩ := Option.map_eq_some_iff.mp hfirst
  obtain rfl : read = argument := (List.cons.inj hflat).1
  exact ⟨unescaped, raw, rest, unquoted, hstring, hsplit, hquoted, undone_of_literal hread⟩

/-- An argument that is quoted and not escaped is read back exactly when all of its
characters may stand there as they are. -/
theorem commandLine_quoted_iff (hword : word ≠ []) (hbare : ∀ c ∈ word, BareChar c) :
    commandLine launcher ('"' :: (text ++ '"' :: ' ' :: word)) = some [text, word] ↔
      ∀ c ∈ text, Plain launcher c := by
  refine ⟨fun h => ?_, commandLine_of_plain hword hbare⟩
  obtain ⟨unescaped, raw, rest, unquoted, hstring, hsplit, hquoted, hliteral⟩ :=
    layers_of_commandLine hbare h
  have hfree : '"' ∉ ' ' :: word := by
    rw [List.mem_cons, not_or]
    exact ⟨by decide, fun hmem => (hbare _ hmem).1 (by decide)⟩
  -- The argument is as long as the text, so no layer has made it shorter.
  have hstringLe := hstring.length_le
  have hquotedLe := hquoted.length_le
  have hliteralLe := hliteral.length_le
  obtain ⟨rfl, -⟩ | ⟨moved, rfl, -⟩ := Separator.cases_of_right_free hfree hsplit.symm
  · obtain ⟨rfl, hslash⟩ := hstring.same (by omega)
    obtain ⟨rfl, hquote⟩ := hquoted.same (by omega)
    obtain ⟨-, hpercent⟩ := hliteral.same (Nat.le_refl _)
    exact fun c hc => ⟨hslash c hc, hpercent c hc, hquote c hc⟩
  · simp only [List.length_append, List.length_cons] at hstringLe
    omega

end Yunpan.DesktopEntry
