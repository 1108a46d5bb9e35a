import Yunpan.Dufs.Access

/-!
# Which rule decides

The permissions of a rule text form a tree.  Seen from outside it is a function that
gives a directory a permission of its own or none, and what is found for a path is the
permission of the nearest directory above it that has one.
-/

namespace Yunpan.Dufs

open Yunpan.Separator

@[simp]
theorem AccessPerm.orElse_indexOnly (inherited : AccessPerm) :
    AccessPerm.indexOnly.orElse inherited = inherited := rfl

theorem AccessPerm.orElse_of_ne {perm : AccessPerm} (h : perm ≠ .indexOnly)
    (inherited : AccessPerm) : perm.orElse inherited = perm := if_neg h

namespace AccessPaths

/-- The node for a directory. -/
def descend : AccessPaths → List Text → Option AccessPaths
  | self, [] => some self
  | self, part :: parts => (IndexMap.get self.children part).bind fun child =>
      descend child parts

/-- The permission that a directory has of its own. -/
def own (self : AccessPaths) (parts : List Text) : AccessPerm :=
  ((self.descend parts).map perm).getD .indexOnly

/-- The permission that holds for a directory, below an inherited one. -/
def effective : AccessPaths → AccessPerm → List Text → AccessPerm
  | self, inherited, [] => self.perm.orElse inherited
  | self, inherited, part :: parts =>
      match IndexMap.get self.children part with
      | some child => effective child (self.perm.orElse inherited) parts
      | none => self.perm.orElse inherited

theorem own_cons (self : AccessPaths) (part : Text) (parts : List Text) :
    self.own (part :: parts) =
      ((IndexMap.get self.children part).map fun child => child.own parts).getD
        .indexOnly := by
  unfold own
  rw [descend]
  cases IndexMap.get self.children part <;> rfl

theorem own_default (parts : List Text) : default.own parts = .indexOnly := by
  cases parts <;> rfl

section Nearest

variable {self : AccessPaths} {inherited : AccessPerm} {parts : List Text}

/-- What is found is the permission that holds for the path; where there is none it is the
node, which shows the way to what lies below. -/
theorem findImpl_eq :
    self.findImpl inherited parts =
      if self.effective inherited parts = .indexOnly then self.descend parts
      else some (new (self.effective inherited parts)) := by
  induction parts generalizing self inherited with
  | nil => rfl
  | cons part parts ih =>
      rw [findImpl, effective, descend]
      cases IndexMap.get self.children part with
      | none => rfl
      | some child => exact ih

/-- Without a permission on the way the inherited one holds. -/
theorem effective_of_free (h : ∀ above, above <+: parts → self.own above = .indexOnly) :
    self.effective inherited parts = inherited := by
  induction parts generalizing self inherited with
  | nil =>
      have hself : self.perm = .indexOnly := h [] List.nil_prefix
      rw [effective, hself, AccessPerm.orElse_indexOnly]
  | cons part parts ih =>
      have hself : self.perm = .indexOnly := h [] List.nil_prefix
      rw [effective, hself, AccessPerm.orElse_indexOnly]
      cases hchild : IndexMap.get self.children part with
      | none => rfl
      | some child =>
          refine ih fun above habove => ?_
          have hbelow := h (part :: above) (List.cons_prefix_cons.mpr ⟨rfl, habove⟩)
          rwa [own_cons, hchild] at hbelow

/-- Otherwise it is the permission of the nearest directory that has one. -/
theorem effective_of_own {above below : List Text} (hown : self.own above ≠ .indexOnly)
    (hfree : ∀ more, more <+: below → more ≠ [] → self.own (above ++ more) = .indexOnly) :
    self.effective inherited (above ++ below) = self.own above := by
  induction above generalizing self inherited with
  | nil =>
      have hself : self.perm ≠ .indexOnly := hown
      cases below with
      | nil => exact AccessPerm.orElse_of_ne hself inherited
      | cons part parts =>
          rw [List.nil_append, effective, AccessPerm.orElse_of_ne hself]
          cases hchild : IndexMap.get self.children part with
          | none => rfl
          | some child =>
              refine effective_of_free fun above habove => ?_
              have hmore := hfree (part :: above)
                (List.cons_prefix_cons.mpr ⟨rfl, habove⟩) (List.cons_ne_nil _ _)
              rwa [List.nil_append, own_cons, hchild] at hmore
  | cons part above ih =>
      rw [own_cons] at hown
      rw [List.cons_append, effective, own_cons]
      cases hchild : IndexMap.get self.children part with
      | none =>
          rw [hchild] at hown
          exact absurd rfl hown
      | some child =>
          rw [hchild] at hown
          refine ih hown fun more hmore hne => ?_
          have hbelow := hfree more hmore hne
          rwa [List.cons_append, own_cons, hchild] at hbelow

end Nearest

/-! ## The rules of a text -/

/-- The directory that a rule names. -/
def ruleParts (path : Text) : List Text :=
  let path := Text.trimMatches (· = '/') path
  if path = [] then [] else path.splitOn '/'

/-- The directory that is asked for. -/
def pathParts (path : Text) : List Text :=
  ((Text.trimMatches (· = '/') path).splitOn '/').filter fun part => part ≠ []

/-- One rule of the list: a directory and its permission. -/
def readItem (item : Text) : Option (List Text × AccessPerm) :=
  match splitOnce ':' item with
  | none => some (ruleParts item, .readOnly)
  | some (path, ['r', 'o']) => some (ruleParts path, .readOnly)
  | some (path, ['r', 'w']) => some (ruleParts path, .readWrite)
  | some _ => none

def addRule (self : AccessPaths) (rule : List Text × AccessPerm) : AccessPaths :=
  addImpl rule.1 rule.2 self

theorem add_eq (self : AccessPaths) (path : Text) {perm : AccessPerm}
    (h : perm ≠ .indexOnly) : self.add path perm = self.addRule (ruleParts path, perm) := by
  unfold add addRule ruleParts
  dsimp only
  split
  case isTrue => rw [setPerm, if_neg h, addImpl]
  case isFalse => rfl

theorem mergeItem_eq (self : AccessPaths) (item : Text) :
    self.mergeItem item = (readItem item).map self.addRule := by
  have hro : AccessPerm.readOnly ≠ .indexOnly := by decide
  have hrw : AccessPerm.readWrite ≠ .indexOnly := by decide
  unfold mergeItem
  split
  case h_1 heq =>
    rw [show readItem item = some (ruleParts item, .readOnly) by simp only [readItem, heq]]
    exact congrArg some (add_eq self item hro)
  case h_2 path heq =>
    rw [show readItem item = some (ruleParts path, .readOnly) by simp only [readItem, heq]]
    exact congrArg some (add_eq self path hro)
  case h_3 path heq =>
    rw [show readItem item = some (ruleParts path, .readWrite) by simp only [readItem, heq]]
    exact congrArg some (add_eq self path hrw)
  case h_4 other hnotRo hnotRw heq =>
    have hread : readItem item = none := by
      unfold readItem
      split
      case h_1 hother => rw [heq] at hother; cases hother
      case h_2 path hother =>
        exact absurd (Option.some.inj (heq.symm.trans hother)) (hnotRo path)
      case h_3 path hother =>
        exact absurd (Option.some.inj (heq.symm.trans hother)) (hnotRw path)
      case h_4 => rfl
    rw [hread, Option.map_none]

/-- The list of a rule text, as far as it can be read. -/
theorem merge_eq_some {self merged : AccessPaths} {paths : Text}
    (h : self.merge paths = some merged) :
    ∃ rules, ((Text.trimMatches (· = ',') paths).splitOn ',').mapM readItem = some rules ∧
      merged = rules.foldl addRule self := by
  unfold merge at h
  generalize (Text.trimMatches (· = ',') paths).splitOn ',' = items at h ⊢
  induction items generalizing self with
  | nil =>
      cases h
      exact ⟨[], rfl, rfl⟩
  | cons item items ih =>
      rw [List.foldlM_cons, mergeItem_eq] at h
      obtain ⟨next, hnext, hrest⟩ := Option.bind_eq_some_iff.mp h
      obtain ⟨rule, hrule, rfl⟩ := Option.map_eq_some_iff.mp hnext
      obtain ⟨rules, hrules, rfl⟩ := ih hrest
      refine ⟨rule :: rules, ?_, rfl⟩
      rw [List.mapM_cons, hrule, hrules]
      rfl

/-- No directory has two children of one name. -/
def Distinct (self : AccessPaths) : Prop :=
  ∀ parts node, self.descend parts = some node → (node.children.map Prod.fst).Nodup

theorem Distinct.child {self child : AccessPaths} {part : Text} (h : self.Distinct)
    (hchild : IndexMap.get self.children part = some child) : child.Distinct := by
  intro parts node hnode
  refine h (part :: parts) node ?_
  rw [descend, hchild, Option.bind_some, hnode]

theorem distinct_default : default.Distinct := by
  intro parts node hnode
  cases parts with
  | nil =>
      cases hnode
      exact List.nodup_nil
  | cons part parts => cases hnode

/-- A rule goes into the child that is there, so that no name comes twice. -/
theorem Distinct.addRule {self : AccessPaths} (h : self.Distinct)
    (rule : List Text × AccessPerm) : (self.addRule rule).Distinct := by
  obtain ⟨path, perm⟩ := rule
  unfold AccessPaths.addRule
  dsimp only
  induction path generalizing self with
  | nil =>
      intro parts node hnode
      cases parts with
      | nil =>
          cases hnode
          exact h [] self rfl
      | cons part parts => exact h (part :: parts) node hnode
  | cons name path ih =>
      intro parts node hnode
      cases parts with
      | nil =>
          cases hnode
          have hnodup := h [] self rfl
          rw [addImpl, children, IndexMap.keys_modify]
          split
          case isTrue => exact hnodup
          case isFalse hnew =>
            exact List.nodup_append.mpr ⟨hnodup, by simp, by
              intro key hkey other hother heq
              rw [List.mem_singleton.mp hother] at heq
              exact hnew (heq ▸ hkey)⟩
      | cons part parts =>
          rw [addImpl, descend, children, IndexMap.get_modify] at hnode
          by_cases hname : part = name
          · rw [if_pos hname] at hnode
            refine ih ?_ parts node hnode
            cases hchild : IndexMap.get self.children name with
            | none => exact distinct_default
            | some child => exact h.child hchild
          · rw [if_neg hname] at hnode
            exact h (part :: parts) node hnode

theorem distinct_of_merge {text : Text} {self : AccessPaths}
    (h : default.merge text = some self) : self.Distinct := by
  obtain ⟨rules, -, rfl⟩ := merge_eq_some h
  have hfold : ∀ rules : List (List Text × AccessPerm), ∀ start : AccessPaths,
      start.Distinct → (rules.foldl AccessPaths.addRule start).Distinct := by
    intro rules
    induction rules with
    | nil => exact fun start hstart => hstart
    | cons rule rules ih => exact fun start hstart => ih _ (hstart.addRule rule)
  exact hfold rules default distinct_default

/-- A name without a child is as good as one with an empty child. -/
theorem own_child {self : AccessPaths} (part : Text) (parts : List Text) :
    self.own (part :: parts) =
      ((IndexMap.get self.children part).getD default).own parts := by
  rw [own_cons]
  cases IndexMap.get self.children part with
  | none => exact (own_default parts).symm
  | some child => rfl

/-- The permission that holds for a path is found one part at a time, from the top. -/
theorem effective_child {self : AccessPaths} (inherited : AccessPerm) (part : Text)
    (parts : List Text) :
    self.effective inherited (part :: parts) =
      ((IndexMap.get self.children part).getD default).effective
        (self.perm.orElse inherited) parts := by
  rw [effective]
  cases IndexMap.get self.children part with
  | none =>
      refine (effective_of_free fun above _ => ?_).symm
      exact own_default above
  | some child => rfl

/-- With a permission on the way the inherited one plays no part. -/
theorem effective_congr {self : AccessPaths} {parts : List Text}
    (h : ∃ above, above <+: parts ∧ self.own above ≠ .indexOnly) (left right : AccessPerm) :
    self.effective left parts = self.effective right parts := by
  induction parts generalizing self left right with
  | nil =>
      obtain ⟨above, habove, hown⟩ := h
      have hself : self.perm ≠ .indexOnly := by rwa [List.prefix_nil.mp habove] at hown
      rw [effective, effective, AccessPerm.orElse_of_ne hself, AccessPerm.orElse_of_ne hself]
  | cons part parts ih =>
      rw [effective_child, effective_child]
      by_cases hself : self.perm = .indexOnly
      · obtain ⟨above, habove, hown⟩ := h
        cases above with
        | nil => exact absurd hself hown
        | cons first above =>
            obtain ⟨rfl, hbelow⟩ := List.cons_prefix_cons.mp habove
            rw [own_child] at hown
            exact ih ⟨above, hbelow, hown⟩ _ _
      · rw [AccessPerm.orElse_of_ne hself, AccessPerm.orElse_of_ne hself]

/-- The paths of a user name a directory that the paths of everybody do not lead to. -/
def Overrides (self anon : AccessPaths) (parts : List Text) : Prop :=
  ∃ above, above <+: parts ∧ self.own above ≠ .indexOnly ∧ anon.descend above = none

theorem overrides_cons {self anon : AccessPaths} {part : Text} {parts : List Text} :
    self.Overrides anon (part :: parts) ↔
      match IndexMap.get anon.children part with
      | some child =>
          ((IndexMap.get self.children part).getD default).Overrides child parts
      | none => ∃ above, above <+: parts ∧
          ((IndexMap.get self.children part).getD default).own above ≠ .indexOnly := by
  constructor
  · rintro ⟨above, habove, hown, hnone⟩
    cases above with
    | nil => cases hnone
    | cons first above =>
        obtain ⟨rfl, hbelow⟩ := List.cons_prefix_cons.mp habove
        rw [own_child] at hown
        rw [descend] at hnone
        cases hchild : IndexMap.get anon.children first with
        | none => exact ⟨above, hbelow, hown⟩
        | some child =>
            rw [hchild] at hnone
            exact ⟨above, hbelow, hown, hnone⟩
  · intro h
    cases hchild : IndexMap.get anon.children part with
    | none =>
        rw [hchild] at h
        obtain ⟨above, habove, hown⟩ := h
        refine ⟨part :: above, List.cons_prefix_cons.mpr ⟨rfl, habove⟩, ?_, ?_⟩
        · rwa [own_child]
        · rw [descend, hchild, Option.bind_none]
    | some child =>
        rw [hchild] at h
        obtain ⟨above, habove, hown, hnone⟩ := h
        refine ⟨part :: above, List.cons_prefix_cons.mpr ⟨rfl, habove⟩, ?_, ?_⟩
        · rwa [own_child]
        · rw [descend, hchild, Option.bind_some, hnone]

/-- What is written at a name everybody has is the higher permission, whatever was
inherited above it. -/
theorem absorbed_perm (perm anonPerm userInherited anonInherited : AccessPerm) :
    let combined := (anonPerm.orElse anonInherited).max (perm.orElse userInherited)
    (if combined ≠ .indexOnly ∧ perm.rank < combined.rank then combined else perm).orElse
      (anonInherited.max userInherited) = combined := by
  cases perm <;> cases anonPerm <;> cases userInherited <;> cases anonInherited <;> rfl

/-- What absorbing leaves at a name. -/
theorem get_absorbChildren {anonChildren : List (Text × AccessPaths)}
    (h : (anonChildren.map Prod.fst).Nodup) (children : List (Text × AccessPaths))
    (origUser : AccessPaths) (origUserEff anonEff : AccessPerm) (name : Text) :
    IndexMap.get (absorbChildren children anonChildren origUser origUserEff anonEff) name =
      match IndexMap.get anonChildren name with
      | some anonChild => some (absorbAnon ((IndexMap.get children name).getD default)
          anonChild ((IndexMap.get origUser.children name).getD default) origUserEff anonEff)
      | none => IndexMap.get children name := by
  induction anonChildren generalizing children with
  | nil => rfl
  | cons first rest ih =>
      obtain ⟨key, anonChild⟩ := first
      obtain ⟨hkey, hrest⟩ := List.nodup_cons.mp h
      rw [absorbChildren, ih hrest, IndexMap.get_cons, IndexMap.get_modify]
      by_cases heq : key = name
      · subst heq
        have hnone : IndexMap.get rest key = none := by
          cases hget : IndexMap.get rest key with
          | none => rfl
          | some value =>
              exact absurd (List.mem_map_of_mem (IndexMap.mem_of_get hget)) hkey
        rw [hnone, if_pos rfl, if_pos rfl]
      · rw [if_neg heq, if_neg (Ne.symm heq)]

/-- A directory that everybody's paths lead to has the higher permission of the two; below
these it is the user's own, if there is one. -/
theorem effective_absorbAnon {anon : AccessPaths} (h : anon.Distinct) (self : AccessPaths)
    (userInherited anonInherited : AccessPerm) (parts : List Text) :
    (self.Overrides anon parts →
      (self.absorbAnon anon self userInherited anonInherited).effective
        (anonInherited.max userInherited) parts = self.effective userInherited parts) ∧
    (¬self.Overrides anon parts →
      (self.absorbAnon anon self userInherited anonInherited).effective
        (anonInherited.max userInherited) parts =
          (anon.effective anonInherited parts).max (self.effective userInherited parts)) := by
  induction parts generalizing anon self userInherited anonInherited with
  | nil =>
      constructor
      · rintro ⟨above, habove, -, hnone⟩
        rw [List.prefix_nil.mp habove] at hnone
        cases hnone
      · intro _
        obtain ⟨anonPerm, anonChildren⟩ := anon
        exact absorbed_perm self.perm anonPerm userInherited anonInherited
  | cons part parts ih =>
      have hchild : (self.absorbAnon anon self userInherited anonInherited).effective
          (anonInherited.max userInherited) (part :: parts) =
            (match IndexMap.get anon.children part with
              | some anonChild =>
                  absorbAnon ((IndexMap.get self.children part).getD default) anonChild
                    ((IndexMap.get self.children part).getD default)
                    (self.perm.orElse userInherited) (anon.perm.orElse anonInherited)
              | none => (IndexMap.get self.children part).getD default).effective
              ((anon.perm.orElse anonInherited).max (self.perm.orElse userInherited))
              parts := by
        have hnodup := h [] anon rfl
        obtain ⟨anonPerm, anonChildren⟩ := anon
        have hperm : (self.absorbAnon (node anonPerm anonChildren) self userInherited
            anonInherited).perm.orElse (anonInherited.max userInherited) =
            (anonPerm.orElse anonInherited).max (self.perm.orElse userInherited) :=
          absorbed_perm self.perm anonPerm userInherited anonInherited
        have hget : IndexMap.get (self.absorbAnon (node anonPerm anonChildren) self
            userInherited anonInherited).children part = _ :=
          get_absorbChildren hnodup self.children self (self.perm.orElse userInherited)
            (anonPerm.orElse anonInherited) part
        rw [effective_child, hget, hperm]
        dsimp only [children, perm]
        cases IndexMap.get anonChildren part <;> rfl
      rw [hchild, overrides_cons, effective_child, effective_child]
      cases hanon : IndexMap.get anon.children part with
      | some anonChild => exact ih (h.child hanon) _ _ _
      | none =>
          have hdefault : default.effective (anon.perm.orElse anonInherited) parts =
              anon.perm.orElse anonInherited :=
            effective_of_free fun above _ => own_default above
          constructor
          · exact fun hown => effective_congr hown _ _
          · intro hfree
            have hnone : ∀ above, above <+: parts →
                ((IndexMap.get self.children part).getD default).own above = .indexOnly :=
              fun above habove => by_contra fun hne => hfree ⟨above, habove, hne⟩
            rw [Option.getD_none, hdefault]
            exact (effective_of_free hnone).trans
              (congrArg _ (effective_of_free hnone).symm)

/-- The permission that is found for a path. -/
def permAt (self : AccessPaths) (path : Text) : AccessPerm :=
  ((self.find path).map perm).getD .indexOnly

theorem permAt_eq (self : AccessPaths) (path : Text) :
    self.permAt path = self.effective .indexOnly (pathParts path) := by
  have hinherited : self.effective self.perm (pathParts path) =
      self.effective .indexOnly (pathParts path) := by
    have hperm : self.perm.orElse self.perm = self.perm.orElse .indexOnly := by
      cases self.perm <;> rfl
    cases pathParts path with
    | nil => exact hperm
    | cons part parts => rw [effective_child, effective_child, hperm]
  rw [permAt, find, ← pathParts, findImpl_eq, hinherited]
  split
  case isTrue hclosed =>
    rw [hclosed, ← own]
    by_contra hown
    have hnearest : self.effective .indexOnly (pathParts path ++ []) =
        self.own (pathParts path) :=
      effective_of_own hown fun more hmore hne => absurd (List.prefix_nil.mp hmore) hne
    rw [List.append_nil, hclosed] at hnearest
    exact hown hnearest.symm
  case isFalse => rfl

/-- A user who logs in has the higher one of the own permission and everybody's, except
below the own directories that everybody's paths do not lead to: these keep the own
permission, even if it is the lower one. -/
theorem permAt_absorbAnon {text : Text} {anon : AccessPaths}
    (h : default.merge text = some anon) (user : AccessPaths) (path : Text) :
    (user.Overrides anon (pathParts path) →
      (user.absorbAnon anon user .indexOnly .indexOnly).permAt path = user.permAt path) ∧
    (¬user.Overrides anon (pathParts path) →
      (user.absorbAnon anon user .indexOnly .indexOnly).permAt path =
        (anon.permAt path).max (user.permAt path)) := by
  rw [permAt_eq, permAt_eq, permAt_eq]
  exact effective_absorbAnon (distinct_of_merge h) user .indexOnly .indexOnly _

theorem permAt_absorbAnon_of_lower :
    ((node .indexOnly [(['d'], new .readOnly)]).absorbAnon (new .readWrite)
      (node .indexOnly [(['d'], new .readOnly)]) .indexOnly .indexOnly).permAt
        "/d/x".toList = .readOnly := by
  have hanon : default.merge "/:rw".toList = some (new .readWrite) := rfl
  have hoverrides : (node .indexOnly [(['d'], new .readOnly)]).Overrides (new .readWrite)
      (pathParts "/d/x".toList) := ⟨[['d']], by decide, by decide, rfl⟩
  exact (permAt_absorbAnon hanon _ "/d/x".toList).1 hoverrides

end AccessPaths

end Yunpan.Dufs
