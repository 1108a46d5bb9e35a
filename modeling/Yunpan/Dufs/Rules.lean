import Yunpan.Dufs.Access

/-!
# How rule texts come apart

A rule text without a mark before its last one is one rule, and whatever the text,
every account that is read from it stands in it as `user:password@/`, with no mark
before that one and no colon in the user.
-/

namespace Yunpan.Dufs

open Yunpan.Separator

universe u v

/-! ## The first mark -/

theorem splitAccountPaths_append {account : Text} (h : ¬mark <:+: account)
    (rest : Text) :
    splitAccountPaths (account ++ '@' :: '/' :: rest) =
      some (account, '/' :: rest) := by
  induction account with
  | nil => rfl
  | cons c account ih =>
      have htail : ¬mark <:+: account := fun hmark =>
        h (hmark.trans (List.suffix_cons c account).isInfix)
      rw [List.cons_append, splitAccountPaths, ih htail]
      · rfl
      · intro next hc heq
        cases account with
        | nil => cases heq
        | cons d account =>
            obtain ⟨rfl, -⟩ := List.cons.inj heq
            exact h (hc ▸ (List.prefix_append mark account).isInfix)

theorem splitAccountPaths_some {rule account paths : Text}
    (h : splitAccountPaths rule = some (account, paths)) :
    (∃ rest, rule = account ++ '@' :: '/' :: rest) ∧ ¬mark <:+: account := by
  induction rule using splitAccountPaths.induct generalizing account with
  | case1 rest =>
      cases h
      refine ⟨⟨rest, rfl⟩, ?_⟩
      decide
  | case2 c rest hfirst ih =>
      rw [splitAccountPaths] at h
      · obtain ⟨⟨before, after⟩, hrest, heq⟩ := Option.map_eq_some_iff.mp h
        cases heq
        obtain ⟨⟨tail, rfl⟩, hfree⟩ := ih hrest
        refine ⟨⟨tail, rfl⟩, ?_⟩
        rw [List.infix_cons_iff]
        rintro (hmark | hmark)
        · obtain ⟨rest, hrest⟩ := hmark
          obtain ⟨rfl, rfl⟩ := List.cons.inj hrest
          exact hfirst _ rfl rfl
        · exact hfree hmark
      · exact hfirst
  | case3 => cases h

/-! ## The bars -/

/-- The parts before the first mark are put together again. -/
theorem splitParts_eq {init : List Text} {last : Text}
    (hinit : ∀ part ∈ init, ¬mark <:+: part) (hlast : mark <:+: last)
    (concated : Text) :
    splitParts concated (init ++ [last]) =
      [concated ++ List.intercalate ['|'] (init ++ [last])] := by
  induction init generalizing concated with
  | nil => simp [splitParts, hlast]
  | cons part init ih =>
      have hpart := hinit part List.mem_cons_self
      have hrest := ih fun x hx => hinit x (List.mem_cons_of_mem _ hx)
      have hne : init ++ [last] ≠ [] := by simp
      rw [List.cons_append, splitParts, if_neg hpart, if_neg hne, hrest,
        List.intercalate_cons_of_ne_nil hne]
      simp

theorem infix_of_mem_splitParts {rule concated : Text} {parts : List Text}
    (h : rule ∈ splitParts concated parts) :
    rule <:+: concated ++ List.intercalate ['|'] parts := by
  induction parts generalizing concated with
  | nil =>
      rw [splitParts] at h
      split at h
      case isTrue => cases h
      case isFalse =>
        rw [List.mem_singleton.mp h]
        simp
  | cons part rest ih =>
      have hjoin : ∃ bar, List.intercalate ['|'] (part :: rest) =
          part ++ bar ++ List.intercalate ['|'] rest ∧
            bar = if rest = [] then [] else ['|'] := by
        cases rest with
        | nil => exact ⟨[], by simp, rfl⟩
        | cons next rest => exact ⟨['|'], by simp [List.intercalate_cons_cons], rfl⟩
      obtain ⟨bar, hjoin, hbar⟩ := hjoin
      rw [splitParts] at h
      split at h
      case isTrue =>
        obtain rfl | h := List.mem_cons.mp h
        · rw [hjoin, ← List.append_assoc, ← List.append_assoc, List.append_assoc]
          exact (List.prefix_append _ _).isInfix
        · rw [hjoin, ← List.append_assoc]
          exact (ih h).trans (List.suffix_append _ _).isInfix
      case isFalse =>
        have hrest := ih h
        rw [← hbar] at hrest
        rw [hjoin]
        simpa using hrest

/-- A rule text whose only mark is in its tail is one rule. -/
theorem splitRules_single {text tail : Text} (htext : ¬mark <:+: text)
    (htail : '|' ∉ tail)
    (hmark : mark <:+: tail) : splitRules [text ++ tail] = [text ++ tail] := by
  obtain ⟨init, last, hparts, hsplit⟩ := splitOn_append_free htail text
  have hinit : ∀ part ∈ init, ¬mark <:+: part := by
    intro part hpart hmark
    have hmem : part ∈ text.splitOn '|' := hparts ▸ List.mem_append_left _ hpart
    have hjoined : part <:+: List.intercalate ['|'] (text.splitOn '|') :=
      infix_of_mem_intercalate hmem
    have hwithin : part <:+: text := by simpa using hjoined
    exact htext (hmark.trans hwithin)
  have hlast : mark <:+: last ++ tail := hmark.trans (List.suffix_append _ _).isInfix
  have hjoin : List.intercalate ['|'] (init ++ [last ++ tail]) = text ++ tail := by
    rw [← hsplit, List.intercalate_splitOn]
  simp [splitRules, hsplit, splitParts_eq hinit hlast, hjoin]

/-- Rules that are split at bars are parts of what was written. -/
theorem infix_of_mem_splitRules {rules : List Text} {rule : Text}
    (h : rule ∈ splitRules rules) : ∃ raw ∈ rules, rule <:+: raw := by
  obtain ⟨raw, hraw, hrule⟩ := List.mem_flatMap.mp h
  refine ⟨raw, hraw, ?_⟩
  simpa using infix_of_mem_splitParts hrule

/-! ## Where an account comes from -/

theorem bind_eq_ok {α β : Type u} {ε : Type v} {x : Except ε α}
    {f : α → Except ε β} {b : β}
    (h : x >>= f = .ok b) : ∃ a, x = .ok a ∧ f a = .ok b := by
  cases x with
  | error e => cases h
  | ok a => exact ⟨a, rfl, h⟩

/-- What every successful step keeps, a successful loop keeps. -/
theorem foldlM_invariant {σ α : Type u} {ε : Type v} {f : σ → α → Except ε σ}
    {P : σ → Prop}
    {items : List α} {s s' : σ}
    (hstep : ∀ s item s', item ∈ items → P s → f s item = .ok s' → P s')
    (hs : P s) (h : items.foldlM f s = .ok s') : P s' := by
  induction items generalizing s with
  | nil =>
      cases h
      exact hs
  | cons item items ih =>
      rw [List.foldlM_cons] at h
      obtain ⟨next, hfirst, hrest⟩ := bind_eq_ok h
      apply ih _ (hstep s item next List.mem_cons_self hs hfirst) hrest
      intro s item s' hitem
      exact hstep s item s' (List.mem_cons_of_mem _ hitem)

/-- The account is written in the text, and read at its first mark and colon. -/
def StandsIn (text user pass : Text) : Prop :=
  (∃ before after, text = before ++ (user ++ ':' :: pass) ++ '@' :: '/' :: after) ∧
    ':' ∉ user ∧ ¬mark <:+: user ++ ':' :: pass

theorem StandsIn.of_infix {rule text user pass : Text} (h : StandsIn rule user pass)
    (hwithin : rule <:+: text) : StandsIn text user pass := by
  obtain ⟨⟨before, after, rfl⟩, hfree⟩ := h
  obtain ⟨front, back, rfl⟩ := hwithin
  exact ⟨⟨front ++ before, after ++ back, by simp⟩, hfree⟩

namespace AccessControl

/-- An account that a rule has added stands in the rule. -/
theorem readRule_accounts {rules rules' : Rules} {rule : Text}
    (h : readRule rules rule = .ok rules') :
    ∀ account ∈ rules'.accounts, account ∈ rules.accounts ∨
      StandsIn rule account.1 account.2.1 := by
  unfold readRule at h
  split at h
  case h_1 => cases h
  case h_2 =>
    split at h
    · cases h
    · cases h
      exact fun account haccount => Or.inl haccount
  case h_3 account paths _ hsplit =>
    obtain ⟨⟨after, hrule⟩, hfree⟩ := splitAccountPaths_some hsplit
    split at h
    case h_1 =>
      cases h
      exact fun account haccount => Or.inl haccount
    case h_2 user pass hcolon =>
      obtain ⟨rfl, huser⟩ := splitOnce_eq_some.mp hcolon
      split at h
      · cases h
      · cases h
        intro entry hentry
        apply (List.mem_append.mp hentry).imp_right
        intro hentry
        rw [List.mem_singleton.mp hentry]
        exact ⟨⟨[], after, by simpa using hrule⟩, huser, hfree⟩

theorem addAccount_users {anonymous : Option AccessPaths} {self self' : AccessControl}
    {account : Text × Text × Text} (h : addAccount anonymous self account = .ok self') :
    ∀ entry ∈ self'.users, entry ∈ self.users ∨
      entry.1 = account.1 ∧ entry.2.1 = account.2.1 := by
  obtain ⟨user, pass, paths⟩ := account
  rw [addAccount] at h
  split at h
  · cases h
  · cases h
    intro entry hentry
    obtain rfl | hentry := IndexMap.mem_insert hentry
    · exact Or.inr ⟨rfl, rfl⟩
    · exact Or.inl hentry

/-- Every user of the access control stands in one of the rules that it was made
from. -/
theorem users_of_new {rawRules : List Text} {access : AccessControl}
    (h : new rawRules = .ok access) :
    ∀ entry ∈ access.users, ∃ raw ∈ rawRules, StandsIn raw entry.1 entry.2.1 := by
  unfold new at h
  split at h
  case isTrue =>
    cases h
    simp [default]
  case isFalse =>
    obtain ⟨rules, hrules, h⟩ := bind_eq_ok h
    obtain ⟨anonymous, -, haccounts⟩ := bind_eq_ok h
    have hread : ∀ account ∈ rules.accounts,
        ∃ rule ∈ splitRules rawRules, StandsIn rule account.1 account.2.1 := by
      apply foldlM_invariant (P := fun rules => ∀ account ∈ rules.accounts,
        ∃ rule ∈ splitRules rawRules, StandsIn rule account.1 account.2.1) _ _ hrules
      · intro s rule s' hrule hs hstep account haccount
        obtain hold | hnew := readRule_accounts hstep account haccount
        · exact hs account hold
        · exact ⟨rule, hrule, hnew⟩
      · simp
    apply foldlM_invariant (P := fun self => ∀ entry ∈ self.users,
      ∃ raw ∈ rawRules, StandsIn raw entry.1 entry.2.1) _ _ haccounts
    · intro s account s' haccount hs hstep entry hentry
      obtain hold | ⟨huser, hpass⟩ := addAccount_users hstep entry hentry
      · exact hs entry hold
      · obtain ⟨rule, hrule, hstands⟩ := hread account haccount
        obtain ⟨raw, hraw, hwithin⟩ := infix_of_mem_splitRules hrule
        rw [huser, hpass]
        exact ⟨raw, hraw, hstands.of_infix hwithin⟩
    · simp

end AccessControl

end Yunpan.Dufs
