import Yunpan.Core.Template

/-!
# Copying an address

`copy_text` pastes the text into the source of a script that the web view evaluates.  The
text stands in a template literal, with its backslashes and backticks escaped and nothing
else.
-/

namespace Yunpan.Desktop

open Yunpan.Template

/-! ## The script -/

/-- `str::replace` for one character. -/
def replaceChar (c : Char) (replacement : List Char) (text : List Char) : List Char :=
  text.flatMap fun d => if d = c then replacement else [d]

theorem replaceChar_append (c : Char) (replacement front text : List Char) :
    replaceChar c replacement (front ++ text) =
      replaceChar c replacement front ++ replaceChar c replacement text :=
  List.flatMap_append

theorem replaceChar_singleton {c d : Char} (h : d ≠ c) (replacement : List Char) :
    replaceChar c replacement [d] = [d] := by
  simp [replaceChar, h]

def escaped (text : List Char) : List Char :=
  replaceChar backtick ['\\', backtick] (replaceChar '\\' ['\\', '\\'] text)

def scriptHead : String :=
  "(function() \x7b
            const ta = document.createElement('textarea');
            ta.value = "

def scriptTail : String :=
  ";
            ta.style.position = 'fixed';
            ta.style.opacity = '0';
            document.body.appendChild(ta);
            ta.select();
            document.execCommand('copy');
            document.body.removeChild(ta);
        \x7d)()"

/-- The script that `copy_text` has evaluated. -/
def copyScript (text : String) : List Char :=
  scriptHead.toList ++ backtick ::
    (escaped text.toList ++ backtick :: scriptTail.toList)

/-- How a script is read that has a template literal before any other backtick. -/
def firstTemplate (script : List Char) : Outcome :=
  template (script.dropWhile (· ≠ backtick)).tail

theorem firstTemplate_copyScript (text : String) : firstTemplate (copyScript text) =
    template (escaped text.toList ++ backtick :: scriptTail.toList) := by
  have hall : scriptHead.toList.all (fun c => decide (c ≠ backtick)) = true := by
    decide +kernel
  have hhead : ∀ c ∈ scriptHead.toList, decide (c ≠ backtick) = true :=
    List.all_eq_true.mp hall
  rw [firstTemplate, copyScript, List.dropWhile_append_of_pos hhead,
    List.dropWhile_cons_of_neg, List.tail_cons]
  simp

/-! ## What the escaping leaves -/

def escapeChar (c : Char) : List Char :=
  if c = '\\' ∨ c = backtick then ['\\', c] else [c]

theorem escaped_eq (text : List Char) : escaped text = text.flatMap escapeChar := by
  unfold escaped replaceChar
  rw [List.flatMap_assoc]
  congr 1
  funext c
  by_cases hslash : c = '\\'
  · subst hslash
    rfl
  · by_cases hbacktick : c = backtick
    · subst hbacktick
      rfl
    · simp [escapeChar, hslash, hbacktick]

theorem escaped_cons (c : Char) (text : List Char) :
    escaped (c :: text) = escapeChar c ++ escaped text := by
  simp only [escaped_eq, List.flatMap_cons]

theorem escapeChar_of_plain {c : Char} (hslash : c ≠ '\\') (hbacktick : c ≠ backtick) :
    escapeChar c = [c] := by
  simp [escapeChar, hslash, hbacktick]

/-- Escaping brings no character to the front but a backslash. -/
theorem head?_escaped {c : Char} (hslash : c ≠ '\\') (hbacktick : c ≠ backtick)
    (text : List Char) {rest : List Char} (hrest : rest.head? ≠ some c) :
    (escaped text ++ rest).head? = some c ↔ text.head? = some c := by
  cases text with
  | nil => simpa [escaped_eq] using hrest
  | cons d text =>
      rw [escaped_cons]
      unfold escapeChar
      split
      case isTrue hescaped =>
        have hd : d ≠ c := by
          rintro rfl
          obtain rfl | rfl := hescaped
          · exact hslash rfl
          · exact hbacktick rfl
        simp [hd, hslash.symm]
      case isFalse => simp

/-- A character of the text that is no carriage return and opens no substitution is read as
itself, escaped or not. -/
theorem template_escapeChar {c : Char} {rest : List Char} (hreturn : c ≠ '\r')
    (hopens : ¬(c = '$' ∧ rest.head? = some openBrace)) :
    template (escapeChar c ++ rest) = (template rest).push (units c.toNat) := by
  by_cases hslash : c = '\\'
  · subst hslash
    exact template_escaped rfl
  · by_cases hbacktick : c = backtick
    · subst hbacktick
      exact template_escaped rfl
    · rw [escapeChar_of_plain hslash hbacktick]
      exact template_cons hbacktick hslash hreturn hopens

/-- The text opens no substitution. -/
def Closed (text : List Char) : Prop := ¬['$', openBrace] <:+: text

theorem Closed.tail {c : Char} {text : List Char} (h : Closed (c :: text)) :
    Closed text :=
  fun hinfix => h (List.IsInfix.trans hinfix (List.suffix_cons c text).isInfix)

theorem Closed.head {text : List Char} (h : Closed ('$' :: text)) :
    text.head? ≠ some openBrace := by
  intro hhead
  obtain ⟨rest, rfl⟩ := List.head?_eq_some_iff.mp hhead
  exact h (List.prefix_append ['$', openBrace] rest).isInfix

/-- A text that opens no substitution is read to its end, as itself apart from its line
breaks.  What follows must not complete its last character to a longer sign. -/
theorem template_escaped_append {text rest : List Char} (h : Closed text)
    (hbrace : rest.head? ≠ some openBrace) (hfeed : rest.head? ≠ some '\n') :
    template (escaped text ++ rest) =
      (template rest).push (utf16 (normalizeNewlines text)) := by
  fun_induction normalizeNewlines text with
  | case1 text ih =>
      have hskip : afterReturn (escaped ('\n' :: text) ++ rest) =
          escaped text ++ rest := by
        rw [escaped_cons, escapeChar_of_plain (by decide) (by decide)]
        rfl
      rw [escaped_cons, escapeChar_of_plain (by decide) (by decide), List.append_assoc,
        List.singleton_append, template_return, hskip, ih h.tail.tail,
        Outcome.push_push]
      rfl
  | case2 text hnext ih =>
      have hhead : text.head? ≠ some '\n' := by
        intro hhead
        obtain ⟨next, htext⟩ := List.head?_eq_some_iff.mp hhead
        exact hnext next htext
      have hstay : afterReturn (escaped text ++ rest) = escaped text ++ rest := by
        apply if_neg
        rwa [head?_escaped (by decide) (by decide) text hfeed]
      rw [escaped_cons, escapeChar_of_plain (by decide) (by decide), List.append_assoc,
        List.singleton_append, template_return, hstay, ih h.tail, Outcome.push_push]
      rfl
  | case3 c text _ hreturn ih =>
      have hopens : ¬(c = '$' ∧ (escaped text ++ rest).head? = some openBrace) := by
        rintro ⟨rfl, hhead⟩
        exact h.head ((head?_escaped (by decide) (by decide) text hbrace).mp hhead)
      rw [escaped_cons, List.append_assoc, template_escapeChar hreturn hopens,
        ih h.tail, Outcome.push_push]
      rfl
  | case4 =>
    cases hread : template rest <;> simp [escaped_eq, hread, Outcome.push, utf16]

theorem head?_cons_ne {c d : Char} (h : c ≠ d) (rest : List Char) :
    (c :: rest).head? ≠ some d := by
  simpa using h

theorem template_of_closed {text : List Char} (tail : List Char) (h : Closed text) :
    template (escaped text ++ backtick :: tail) =
      .closed (utf16 (normalizeNewlines text)) tail := by
  rw [template_escaped_append h (head?_cons_ne (by decide) _)
    (head?_cons_ne (by decide) _), template_backtick, Outcome.push, List.append_nil]

theorem closed_nil : Closed [] := fun h => by simpa using List.eq_nil_of_infix_nil h

/-- The part of a text in front of its first substitution, and the part behind it. -/
theorem exists_substitution {text : List Char} (h : ¬Closed text) :
    ∃ front code, text = front ++ '$' :: openBrace :: code ∧ Closed front := by
  induction text with
  | nil => exact absurd closed_nil h
  | cons c text ih =>
      by_cases hhere : ['$', openBrace] <+: c :: text
      · obtain ⟨code, heq⟩ := hhere
        exact ⟨[], code, heq.symm, closed_nil⟩
      · obtain ⟨front, code, rfl, hfront⟩ := ih fun hclosed => h fun hinfix =>
          (List.infix_cons_iff.mp hinfix).elim hhere hclosed
        refine ⟨c :: front, code, rfl, fun hinfix => ?_⟩
        obtain hstart | hinfix := List.infix_cons_iff.mp hinfix
        · exact hhere (hstart.trans (List.prefix_append (c :: front) _))
        · exact hfront hinfix

/-- The first substitution of the text is one of the script, with the text behind it as
code. -/
theorem template_of_substitution {front : List Char} (code tail : List Char)
    (h : Closed front) :
    template (escaped (front ++ '$' :: openBrace :: code) ++ backtick :: tail) =
      .substitution (utf16 (normalizeNewlines front))
        (escaped code ++ backtick :: tail) := by
  have hsplit : escaped (front ++ '$' :: openBrace :: code) ++ backtick :: tail =
      escaped front ++ '$' :: openBrace :: (escaped code ++ backtick :: tail) := by
    rw [escaped_eq, List.flatMap_append, ← escaped_eq, ← escaped_eq, escaped_cons,
      escaped_cons, List.append_assoc]
    rfl
  rw [hsplit, template_escaped_append h (head?_cons_ne (by decide) _)
    (head?_cons_ne (by decide) _), template_substitution, Outcome.push, List.append_nil]

/-- The script assigns the text, and evaluates nothing of it, exactly when the text opens
no substitution and holds no carriage return. -/
theorem copies_exactly_iff (text : String) :
    firstTemplate (copyScript text) = .closed (utf16 text.toList) scriptTail.toList ↔
      ¬['$', openBrace] <:+: text.toList ∧ '\r' ∉ text.toList := by
  rw [firstTemplate_copyScript]
  by_cases hclosed : Closed text.toList
  · rw [template_of_closed _ hclosed]
    constructor
    · intro h
      obtain ⟨hvalue, -⟩ := Outcome.closed.inj h
      refine ⟨hclosed, fun hreturn => ?_⟩
      have hunit := (return_mem_utf16 text.toList).mpr hreturn
      rw [← hvalue] at hunit
      exact not_mem_normalizeNewlines _ ((return_mem_utf16 _).mp hunit)
    · rintro ⟨-, hreturn⟩
      rw [normalizeNewlines_of_not_mem hreturn]
  · obtain ⟨front, code, htext, hfront⟩ := exists_substitution hclosed
    rw [htext, template_of_substitution code _ hfront, ← htext]
    exact iff_of_false nofun fun h => hclosed h.1

/-- An address that has the window run a call of the relay's choice. -/
def hostileUrl : String := "https://disk.example.com/$\x7balert(1)\x7d"

theorem code_evaluated :
    firstTemplate (copyScript hostileUrl) =
        .substitution (utf16 "https://disk.example.com/".toList)
          ("alert(1)\x7d".toList ++ backtick :: scriptTail.toList) ∧
      firstTemplate (copyScript hostileUrl) ≠
        .closed (utf16 hostileUrl.toList) scriptTail.toList := by
  have hsplit : hostileUrl.toList =
      "https://disk.example.com/".toList ++
        '$' :: openBrace :: "alert(1)\x7d".toList := by
    decide +kernel
  have hclosed : Closed "https://disk.example.com/".toList := by
    unfold Closed
    decide +kernel
  have hvalue : normalizeNewlines "https://disk.example.com/".toList =
      "https://disk.example.com/".toList := by
    apply normalizeNewlines_of_not_mem
    decide +kernel
  have hcode : escaped "alert(1)\x7d".toList = "alert(1)\x7d".toList := by
    decide +kernel
  rw [firstTemplate_copyScript, hsplit, template_of_substitution _ _ hclosed,
    hvalue, hcode]
  exact ⟨rfl, nofun⟩

end Yunpan.Desktop
