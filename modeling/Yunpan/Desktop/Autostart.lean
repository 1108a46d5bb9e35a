import Mathlib
import Yunpan.Core.DesktopEntry
import Yunpan.Core.PropertyList
import Yunpan.Core.Separator
import Yunpan.Desktop.Clipboard

/-!
# Starting at login

The system is told to start the program by a file that names its path: a property list on
macOS, a desktop entry on Linux.
-/

namespace Yunpan.Desktop

open Yunpan.Xml

def launchAgentLabel : String := "top.zhoumaosen.yunpan"

/-- The argument for a start without a window. -/
def hiddenFlag : String := "--hidden"

/-! ## The property list -/

def xmlEscape (s : List Char) : List Char :=
  replaceChar apostrophe "&apos;".toList
    (replaceChar '"' "&quot;".toList
      (replaceChar '>' "&gt;".toList
        (replaceChar '<' "&lt;".toList (replaceChar '&' "&amp;".toList s))))

def plistHead : List Char :=
  ["<?xml version=\"1.0\" encoding=\"UTF-8\"?>\n",
    "<!DOCTYPE plist PUBLIC \"-//Apple//DTD PLIST 1.0//EN\" ",
    "\"http://www.apple.com/DTDs/PropertyList-1.0.dtd\">\n",
    "<plist version=\"1.0\">\n",
    "<dict>\n",
    "    <key>Label</key>\n",
    "    <string>", launchAgentLabel, "</string>\n",
    "    <key>ProgramArguments</key>\n",
    "    <array>\n",
    "        <string>"].flatMap String.toList

def plistTail : List Char :=
  ["</string>\n",
    "        <string>", hiddenFlag, "</string>\n",
    "    </array>\n",
    "    <key>RunAtLoad</key>\n",
    "    <true/>\n",
    "</dict>\n",
    "</plist>\n"].flatMap String.toList

def renderPlist (exePath : String) : List Char :=
  plistHead ++ (xmlEscape exePath.toList ++ plistTail)

/-! ### What the escaping leaves -/

/-- A predefined character as a reference to it, any other as itself. -/
def xmlEscapeChar (c : Char) : List Char :=
  match predefined.find? fun entity => decide (entity.2 = c) with
  | some entity => '&' :: (entity.1 ++ [';'])
  | none => [c]

theorem xmlEscapeChar_cases (c : Char) :
    (∃ entity ∈ predefined, entity.2 = c ∧
        xmlEscapeChar c = '&' :: (entity.1 ++ [';'])) ∨
      ((∀ entity ∈ predefined, c ≠ entity.2) ∧ xmlEscapeChar c = [c]) := by
  unfold xmlEscapeChar
  cases hfind : predefined.find? fun entity => decide (entity.2 = c) with
  | some entity =>
      have hchar := List.find?_some hfind
      exact Or.inl ⟨entity, List.mem_of_find?_eq_some hfind, of_decide_eq_true hchar, rfl⟩
  | none =>
      refine Or.inr ⟨fun entity hmem heq => ?_, rfl⟩
      exact List.find?_eq_none.mp hfind entity hmem (decide_eq_true heq.symm)

/-- The predefined characters by name. -/
theorem ne_of_plain {c : Char} (h : ∀ entity ∈ predefined, c ≠ entity.2) :
    c ≠ '&' ∧ c ≠ '<' ∧ c ≠ '>' ∧ c ≠ '"' ∧ c ≠ apostrophe := by
  simpa [predefined] using h

theorem xmlEscape_singleton (c : Char) : xmlEscape [c] = xmlEscapeChar c := by
  have hreference : ∀ entity ∈ predefined,
      xmlEscape [entity.2] = '&' :: (entity.1 ++ [';']) := by decide
  obtain ⟨entity, hmem, rfl, heq⟩ | ⟨hplain, heq⟩ := xmlEscapeChar_cases c
  · rw [heq]
    exact hreference entity hmem
  · obtain ⟨hamp, hlt, hgt, hquot, hapos⟩ := ne_of_plain hplain
    rw [heq, xmlEscape, replaceChar_singleton hamp, replaceChar_singleton hlt,
      replaceChar_singleton hgt, replaceChar_singleton hquot, replaceChar_singleton hapos]

theorem xmlEscape_cons (c : Char) (s : List Char) :
    xmlEscape (c :: s) = xmlEscapeChar c ++ xmlEscape s := by
  rw [← xmlEscape_singleton, ← List.singleton_append]
  simp only [xmlEscape, replaceChar_append]

/-- The five replacements one after the other are one substitution: none of them changes
what an earlier one has put in. -/
theorem xmlEscape_eq (s : List Char) : xmlEscape s = s.flatMap xmlEscapeChar := by
  induction s with
  | nil => rfl
  | cons c s ih => rw [xmlEscape_cons, ih, List.flatMap_cons]

/-- A character of an escaped text is none of those that delimit markup, and it comes from
the text or is one that XML allows and no carriage return. -/
theorem mem_xmlEscape {s : List Char} {d : Char} (h : d ∈ xmlEscape s) :
    (d ≠ '<' ∧ d ≠ '>' ∧ d ≠ '"' ∧ d ≠ apostrophe) ∧
      (d ∈ s ∨ (IsXmlChar d ∧ d ≠ '\r')) := by
  have hreference : ∀ d ∈ predefined.flatMap fun entity => '&' :: (entity.1 ++ [';']),
      (d ≠ '<' ∧ d ≠ '>' ∧ d ≠ '"' ∧ d ≠ apostrophe) ∧ IsXmlChar d ∧ d ≠ '\r' :=
    List.all_iff_forall_prop.mp (by decide)
  rw [xmlEscape_eq] at h
  obtain ⟨c, hc, hd⟩ := List.mem_flatMap.mp h
  obtain ⟨entity, hmem, -, heq⟩ | ⟨hplain, heq⟩ := xmlEscapeChar_cases c
  · rw [heq] at hd
    obtain ⟨hquiet, hchar⟩ := hreference d (List.mem_flatMap_of_mem hmem hd)
    exact ⟨hquiet, Or.inr hchar⟩
  · rw [heq, List.mem_singleton] at hd
    subst hd
    exact ⟨(ne_of_plain hplain).2, Or.inl hc⟩

/-- Every `&` of an escaped text begins a reference to a predefined entity. -/
theorem ampersand_begins_entity {s before after : List Char}
    (h : xmlEscape s = before ++ '&' :: after) :
    ∃ entity ∈ predefined, entity.1 ++ [';'] <+: after := by
  have hfree : ∀ entity ∈ predefined, '&' ∉ entity.1 ++ [';'] := by decide
  induction s generalizing before with
  | nil =>
      have hnil : xmlEscape [] = [] := rfl
      simp [hnil] at h
  | cons c s ih =>
      rw [xmlEscape_cons] at h
      obtain ⟨entity, hmem, -, heq⟩ | ⟨hplain, heq⟩ := xmlEscapeChar_cases c
      · rw [heq, List.cons_append] at h
        cases before with
        | nil =>
            obtain ⟨-, rfl⟩ := List.cons.inj h
            exact ⟨entity, hmem, List.prefix_append _ _⟩
        | cons d before =>
            have hname : '&' ∉ entity.1 ++ [';'] := hfree entity hmem
            obtain ⟨-, hrest⟩ := List.cons.inj h
            obtain ⟨rest, -, htail⟩ := Separator.after_of_free_front hname hrest
            exact ih htail
      · have hne := (ne_of_plain hplain).1
        have hc : '&' ∉ [c] := fun hmem => hne (List.mem_singleton.mp hmem).symm
        rw [heq] at h
        obtain ⟨rest, -, htail⟩ := Separator.after_of_free_front hc h
        exact ih htail

theorem decode_xmlEscapeChar (c : Char) (rest : List Char) :
    decode (xmlEscapeChar c ++ rest) = (decode rest).map (c :: ·) := by
  have hread : ∀ entity ∈ predefined,
      ';' ∉ entity.1 ∧ reference entity.1 = some entity.2 := by decide
  obtain ⟨entity, hmem, rfl, heq⟩ | ⟨hplain, heq⟩ := xmlEscapeChar_cases c
  · obtain ⟨hname, href⟩ := hread entity hmem
    rw [heq, List.cons_append, List.append_assoc, List.singleton_append]
    exact decode_reference hname href rest
  · obtain ⟨hamp, hlt, -⟩ := ne_of_plain hplain
    rw [heq, List.singleton_append]
    exact decode_cons hamp hlt rest

theorem decode_xmlEscape (s : List Char) : decode (xmlEscape s) = some s := by
  induction s with
  | nil => rfl
  | cons c s ih =>
      rw [xmlEscape_cons, decode_xmlEscapeChar, ih]
      rfl

theorem characterData_xmlEscape (s : List Char) :
    characterData (xmlEscape s) = some s := by
  have hend : ¬[']', ']', '>'] <:+: xmlEscape s := by
    intro hinfix
    have hclose : '>' ∈ xmlEscape s := hinfix.subset (by simp)
    exact (mem_xmlEscape hclose).1.2.1 rfl
  rw [characterData, if_neg hend, decode_xmlEscape]

/-! ### The document -/

/-- A line break and the indentation of the next line. -/
def indent (n : ℕ) : Node := .text ('\n' :: List.replicate n ' ')

def leaf (name : String) (text : List Char) : Node :=
  .element name.toList [] [.text text]

/-- The tree of the property list: the path is the text of one element. -/
def launchAgent (exePath : List Char) : Node :=
  .element "plist".toList " version=\"1.0\"".toList
    [indent 0,
      .element "dict".toList []
        [indent 4, leaf "key" "Label".toList,
          indent 4, leaf "string" launchAgentLabel.toList,
          indent 4, leaf "key" "ProgramArguments".toList,
          indent 4,
          .element "array".toList []
            [indent 8, leaf "string" exePath, indent 8, leaf "string" hiddenFlag.toList,
              indent 4],
          indent 4, leaf "key" "RunAtLoad".toList,
          indent 4, .element "true".toList [] [],
          indent 0],
      indent 0]

/-- The elements that are open in front of the path. -/
def agentStack : Stack where
  current := ⟨"string".toList, [], []⟩
  outer :=
    [⟨"array".toList, [], [indent 8]⟩,
      ⟨"dict".toList, [],
        [indent 4, leaf "key" "ProgramArguments".toList,
          indent 4, leaf "string" launchAgentLabel.toList,
          indent 4, leaf "key" "Label".toList,
          indent 4]⟩,
      ⟨"plist".toList, " version=\"1.0\"".toList, [indent 0]⟩,
      ⟨[], [], [indent 0, indent 0, .text []]⟩]

def agentHead : List Token := (scan (.text []) plistHead).2

def agentTail : List Token := (scan (.markup none []) plistTail.tail).2

theorem scan_agentHead : scan (.text []) plistHead = (.text [], agentHead) :=
  Prod.ext (by decide +kernel) (by rw [agentHead])

theorem scan_agentTail :
    scan (.markup none []) plistTail.tail = (.text ['\n'], agentTail) :=
  Prod.ext (by decide +kernel) (by rw [agentTail])

theorem extend_agentHead : Stack.start.extend agentHead = some agentStack := by
  decide +kernel

theorem extend_agentTail (exePath : List Char) :
    ((agentStack.add (.text exePath)).extend (agentTail ++ [.text ['\n']])).bind Stack.root =
      some (launchAgent exePath) := by
  cbv

theorem document_renderPlist {exePath : String}
    (hpath : ∀ c ∈ exePath.toList, IsXmlChar c ∧ c ≠ '\r') :
    document (renderPlist exePath) = some (launchAgent exePath.toList) := by
  have hframe : ∀ c ∈ plistHead ++ plistTail, IsXmlChar c ∧ c ≠ '\r' :=
    List.all_iff_forall_prop.mp (by decide +kernel)
  have hchars : ∀ c ∈ renderPlist exePath, IsXmlChar c ∧ c ≠ '\r' := by
    intro c hc
    rw [renderPlist, List.mem_append, List.mem_append] at hc
    obtain hhead | hpart | htail := hc
    · exact hframe c (List.mem_append_left _ hhead)
    · obtain ⟨-, hmem | hchar⟩ := mem_xmlEscape hpart
      · exact hpath c hmem
      · exact hchar
    · exact hframe c (List.mem_append_right _ htail)
  have htail : plistTail = '<' :: plistTail.tail := by decide +kernel
  have hopen : '<' ∉ xmlEscape exePath.toList := fun hmem => (mem_xmlEscape hmem).1.1 rfl
  have hvalue := characterData_xmlEscape exePath.toList
  rw [renderPlist, htail] at hchars ⊢
  rw [document_between scan_agentHead scan_agentTail hopen hvalue extend_agentHead
    (fun c hc => (hchars c hc).1) fun hmem => (hchars _ hmem).2 rfl]
  exact extend_agentTail exePath.toList

/-- The command line that the property list has the system run. -/
def programArguments (text : List Char) : Option (List (List Char)) := do
  (← (← PropertyList.read text).lookup "ProgramArguments".toList).strings

/-- What the property list says. -/
def agentValue (exePath : List Char) : PropertyList.Value :=
  .dict
    [("Label".toList, .string launchAgentLabel.toList),
      ("ProgramArguments".toList, .array [.string exePath, .string hiddenFlag.toList]),
      ("RunAtLoad".toList, .boolean true)]

theorem root_launchAgent (exePath : List Char) :
    PropertyList.root (launchAgent exePath) = some (agentValue exePath) := by
  simp [PropertyList.root, launchAgent, agentValue, indent, leaf, PropertyList.values,
    PropertyList.value, PropertyList.entries, PropertyList.characters, isBlank]

theorem programArguments_of_document {text exePath : List Char}
    (h : document text = some (launchAgent exePath)) :
    programArguments text = some [exePath, hiddenFlag.toList] := by
  have hread : PropertyList.read text = some (agentValue exePath) := by
    rw [PropertyList.read, h]
    exact root_launchAgent exePath
  rw [programArguments, hread]
  cbv

/-- An escaped path has no character that delimits markup, its `&` all begin references to
predefined entities, and it decodes to the path.  The tree of the property list has the path
as the text of one element and is otherwise the same for all paths. -/
theorem plist_lossless (exePath : String)
    (h : ∀ c ∈ exePath.toList, IsXmlChar c ∧ c ≠ '\r') :
    (∀ c ∈ xmlEscape exePath.toList, c ≠ '<' ∧ c ≠ '>' ∧ c ≠ '"' ∧ c ≠ apostrophe) ∧
      (∀ before after, xmlEscape exePath.toList = before ++ '&' :: after →
        ∃ entity ∈ predefined, entity.1 ++ [';'] <+: after) ∧
      decode (xmlEscape exePath.toList) = some exePath.toList ∧
      document (renderPlist exePath) = some (launchAgent exePath.toList) ∧
      programArguments (renderPlist exePath) =
        some [exePath.toList, hiddenFlag.toList] := by
  have hdocument := document_renderPlist h
  exact ⟨fun c hc => (mem_xmlEscape hc).1, fun _ _ => ampersand_begins_entity,
    decode_xmlEscape exePath.toList, hdocument, programArguments_of_document hdocument⟩

theorem plist_lossless_sample :
    programArguments (renderPlist "/Applications/Yun&Pan.app/Contents/MacOS/yunpan") =
      some ["/Applications/Yun&Pan.app/Contents/MacOS/yunpan".toList,
        "--hidden".toList] :=
  (plist_lossless "/Applications/Yun&Pan.app/Contents/MacOS/yunpan"
    (List.all_iff_forall_prop.mp (by decide +kernel))).2.2.2.2

/-! ## The desktop entry -/

open DesktopEntry (Launcher command commandLine mainGroup)

def desktopHead : List Char :=
  ["[Desktop Entry]\n",
    "Type=Application\n",
    "Name=云链盘\n",
    "Exec=\""].flatMap String.toList

def desktopTail : List Char :=
  ["\" ", hiddenFlag, "\n",
    "X-GNOME-Autostart-enabled=true\n"].flatMap String.toList

def renderDesktopEntry (exePath : String) : List Char :=
  desktopHead ++ (exePath.toList ++ desktopTail)

/-- The value of `Exec`. -/
def execValue (exePath : List Char) : List Char :=
  '"' :: (exePath ++ '"' :: ' ' :: hiddenFlag.toList)

def desktopLines (exePath : List Char) : List (List Char) :=
  ["[Desktop Entry]".toList, "Type=Application".toList, "Name=云链盘".toList,
    "Exec=".toList ++ execValue exePath, "X-GNOME-Autostart-enabled=true".toList, []]

/-- The group of the entry. -/
def desktopGroup (exePath : List Char) : DesktopEntry.Group where
  name := "Desktop Entry".toList
  entries :=
    [("Type".toList, "Application".toList), ("Name".toList, "云链盘".toList),
      ("Exec".toList, execValue exePath),
      ("X-GNOME-Autostart-enabled".toList, "true".toList)]

/-- The entry starts this program: it has the lines of the template and no others, the keys
of the template and no others, and its command is the path and the flag. -/
structure StartsThis (launcher : Launcher) (exePath : String) : Prop where
  lines : DesktopEntry.lines (renderDesktopEntry exePath) = desktopLines exePath.toList
  keys : (mainGroup (renderDesktopEntry exePath)).map (·.keys) =
    some ["Type".toList, "Name".toList, "Exec".toList, "X-GNOME-Autostart-enabled".toList]
  command : command launcher (renderDesktopEntry exePath) =
    some [exePath.toList, hiddenFlag.toList]

theorem renderDesktopEntry_eq (exePath : String) : renderDesktopEntry exePath =
    List.intercalate ['\n'] (desktopLines exePath.toList) := by
  have hhead : desktopHead = "[Desktop Entry]".toList ++ '\n' :: ("Type=Application".toList ++
      '\n' :: ("Name=云链盘".toList ++ '\n' :: ("Exec=".toList ++ ['"']))) := by
    decide +kernel
  have htail : desktopTail = '"' :: ' ' :: (hiddenFlag.toList ++
      '\n' :: ("X-GNOME-Autostart-enabled=true".toList ++ ['\n'])) := by
    decide +kernel
  rw [renderDesktopEntry, hhead, htail]
  simp only [desktopLines, execValue, List.intercalate_cons_cons, List.intercalate_singleton,
    List.append_assoc, List.cons_append, List.nil_append, List.append_nil]

theorem lines_renderDesktopEntry {exePath : String} (h : '\n' ∉ exePath.toList) :
    DesktopEntry.lines (renderDesktopEntry exePath) = desktopLines exePath.toList := by
  have hvalue : '\n' ∉ execValue exePath.toList := by
    have hflag : '\n' ∉ hiddenFlag.toList := by decide +kernel
    simp [execValue, h, hflag]
  have hlines : ∀ line ∈ desktopLines exePath.toList, '\n' ∉ line := by
    simp only [desktopLines, List.forall_mem_cons, List.mem_append, hvalue, or_false]
    decide +kernel
  rw [DesktopEntry.lines, renderDesktopEntry_eq]
  exact List.splitOn_intercalate '\n' hlines (by simp [desktopLines])

/-- What the lines say. -/
def desktopRead (value : List Char) : List DesktopEntry.Line :=
  [.header "Desktop Entry".toList, .entry "Type".toList "Application".toList,
    .entry "Name".toList "云链盘".toList, .entry "Exec".toList value,
    .entry "X-GNOME-Autostart-enabled".toList "true".toList, .comment]

theorem mapM_readLine_desktopLines (exePath : List Char) :
    (desktopLines exePath).mapM DesktopEntry.readLine =
      some (desktopRead (execValue exePath)) := by
  unfold desktopLines execValue
  generalize exePath ++ '"' :: ' ' :: hiddenFlag.toList = rest
  cbv

theorem gather_desktopRead (exePath : List Char) :
    DesktopEntry.gather none (desktopRead (execValue exePath)) =
      some [desktopGroup exePath] := by
  unfold desktopRead desktopGroup
  generalize execValue exePath = value
  cbv

theorem mainGroup_of_lines {text exePath : List Char}
    (h : DesktopEntry.lines text = desktopLines exePath) :
    mainGroup text = some (desktopGroup exePath) := by
  simp only [mainGroup, h, mapM_readLine_desktopLines, gather_desktopRead,
    Option.bind_eq_bind, Option.bind_some]
  exact if_pos ⟨rfl, by simp⟩

theorem command_of_lines (launcher : Launcher) {text exePath : List Char}
    (h : DesktopEntry.lines text = desktopLines exePath) :
    command launcher text = commandLine launcher (execValue exePath) := by
  rw [command, mainGroup_of_lines h]
  rfl

/-- The entry starts this program exactly when no character of the path means something
else in one of the layers. -/
theorem startsThis_iff (launcher : Launcher) (exePath : String) :
    StartsThis launcher exePath ↔
      ∀ c ∈ exePath.toList, c ≠ '\n' ∧ c ≠ '"' ∧ c ≠ '\\' ∧ c ≠ '%' ∧
        (launcher.lenient = true ∨ (c ≠ '$' ∧ c ≠ Template.backtick)) := by
  have hflag : hiddenFlag.toList ≠ [] := by decide +kernel
  have hbare : ∀ c ∈ hiddenFlag.toList, DesktopEntry.BareChar c :=
    List.all_iff_forall_prop.mp (by decide +kernel)
  constructor
  · rintro ⟨hlines, -, hread⟩ c hc
    rw [command_of_lines launcher hlines] at hread
    obtain ⟨hslash, hpercent, hquote, hopen⟩ :=
      (DesktopEntry.commandLine_quoted_iff hflag hbare).mp hread c hc
    refine ⟨?_, hquote, hslash, hpercent, hopen⟩
    rintro rfl
    have hline : "Exec=".toList ++ execValue exePath.toList ∈
        DesktopEntry.lines (renderDesktopEntry exePath) := by
      simp [hlines, desktopLines]
    have hfree := Separator.not_mem_of_mem_splitOn hline
    simp [execValue, hc] at hfree
  · intro h
    have hlines := lines_renderDesktopEntry fun hmem => (h _ hmem).1 rfl
    refine ⟨hlines, by rw [mainGroup_of_lines hlines]; rfl, ?_⟩
    rw [command_of_lines launcher hlines]
    refine (DesktopEntry.commandLine_quoted_iff hflag hbare).mpr fun c hc => ?_
    obtain ⟨-, hquote, hslash, hpercent, hopen⟩ := h c hc
    exact ⟨hslash, hpercent, hquote, hopen⟩

/-- A path that a system may well have: the percent sign begins no field code, so the entry
is no command at all. -/
theorem percent_sign_refused :
    (∀ launcher, command launcher (renderDesktopEntry "/opt/100%/yunpan") = none) ∧
      ∀ launcher, ¬StartsThis launcher "/opt/100%/yunpan" := by
  have hcommand (launcher : Launcher) :
      command launcher (renderDesktopEntry "/opt/100%/yunpan") = none := by
    rw [command_of_lines launcher (lines_renderDesktopEntry (by decide +kernel))]
    cbv
  refine ⟨hcommand, fun launcher h => ?_⟩
  have hread := h.command
  rw [hcommand] at hread
  cases hread

end Yunpan.Desktop
