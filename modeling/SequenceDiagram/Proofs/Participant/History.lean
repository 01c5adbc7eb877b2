import Mathlib.Data.List.Find
import Mathlib.Data.List.Induction
import SequenceDiagram.Proofs.Binary32.Order
import SequenceDiagram.Proofs.Distinct
import SequenceDiagram.Proofs.Participant.Mentions

namespace SequenceDiagram

/-!
# The ledger and its history

Everything in a ledger follows from the mentions that were added, taken name by name.

* `Span.before_trans` and `Span.before_cases`: the order of the places is strict and total, so
  `pairwise_insertSpan` keeps the places of a record in increasing order.
* `said` lists what was said about a name. `Ledger.getD_get?_addAll`: the record of the name comes
  from it by `Participant.merge` alone.
* `foldl_flag` and `foldl_later` say what becomes of a flag, and of a value that later ones replace.
* `Participant.MadeOf` puts them together for a whole record, and `Ledger.madeOf_of_mem` says it of
  every record in a ledger. Whatever else is needed of records follows from this.
* `ledger_follows_from_history` is the result.
-/

/-! ### The order of places -/

namespace Span

theorem before_iff {s t : Span} : s.before t = true ↔ s.start < t.start ∨ s.start = t.start ∧
    (s.stop < t.stop ∨ s.stop = t.stop ∧
      (s.line < t.line ∨ s.line = t.line ∧ s.column < t.column)) := by
  simp [before]

theorem before_trans {s t u : Span} (h : s.before t = true) (h' : t.before u = true) :
    s.before u = true := by
  rw [before_iff] at *
  omega

theorem not_before_self {s : Span} : ¬ s.before s = true := by
  rw [before_iff]
  omega

/-- Of two different places, one stands before the other. -/
theorem before_cases (s t : Span) : s = t ∨ s.before t = true ∨ t.before s = true := by
  obtain ⟨start, stop, line, column⟩ := s
  obtain ⟨start', stop', line', column'⟩ := t
  simp only [before_iff, mk.injEq]
  omega

end Span

section InsertSpan

variable {s t : Span} {rest : List Span}

theorem insertSpan_self : insertSpan s (s :: rest) = s :: rest := by
  rw [insertSpan, if_pos rfl]

theorem insertSpan_before (h : s.before t = true) : insertSpan s (t :: rest) = s :: t :: rest := by
  have hne : s ≠ t := by
    rintro rfl
    exact Span.not_before_self h
  rw [insertSpan, if_neg hne, if_pos h]

theorem insertSpan_behind (h : t.before s = true) :
    insertSpan s (t :: rest) = t :: insertSpan s rest := by
  have hne : s ≠ t := by
    rintro rfl
    exact Span.not_before_self h
  have hnot : ¬ s.before t = true := fun h' => Span.not_before_self (Span.before_trans h h')
  rw [insertSpan, if_neg hne, if_neg hnot]

end InsertSpan

/-- Places in increasing order stay in order. -/
theorem pairwise_insertSpan {s : Span} {spans : List Span}
    (h : spans.Pairwise fun t u => t.before u = true) :
    (insertSpan s spans).Pairwise fun t u => t.before u = true := by
  induction spans with
  | nil => exact List.pairwise_singleton _ _
  | cons t rest ih =>
    obtain ⟨ht, hrest⟩ := List.pairwise_cons.mp h
    rcases s.before_cases t with rfl | hbefore | hbehind
    · rwa [insertSpan_self]
    · rw [insertSpan_before hbefore]
      refine List.pairwise_cons.mpr ⟨List.forall_mem_cons.mpr ⟨hbefore, fun u hu => ?_⟩, h⟩
      exact Span.before_trans hbefore (ht u hu)
    · rw [insertSpan_behind hbehind]
      refine List.pairwise_cons.mpr ⟨fun u hu => ?_, ih hrest⟩
      rcases mem_insertSpan.mp hu with rfl | hu
      · exact hbehind
      · exact ht u hu

/-! ### What was said about a name -/

/-- The mentions of a name, in the order in which they were added. -/
def said (name : String) (mentions : List (String × Mention)) : List Mention :=
  (mentions.filter (·.1 = name)).map (·.2)

theorem mem_said {name : String} {m : Mention} {mentions : List (String × Mention)} :
    m ∈ said name mentions ↔ (name, m) ∈ mentions := by
  simp [said]

namespace Ledger

theorem addAll_concat (ledger : Ledger) (mentions : List (String × Mention))
    (x : String × Mention) :
    ledger.addAll (mentions ++ [x]) = (ledger.addAll mentions).add x.1 x.2 :=
  ledger.addAll_append mentions [x]

section Records

variable {ledger : Ledger} {name : String} {p : Participant}

theorem name_of_get? (h : ledger.get? name = some p) : p.name = name := by
  simpa using List.find?_some h

theorem get?_eq_none (h : name ∉ ledger.names) : ledger.get? name = none :=
  List.find?_eq_none.mpr fun p hp => by
    simpa using fun heq : p.name = name => h (heq ▸ List.mem_map_of_mem hp)

/-- Whoever is in the ledger has a record. -/
theorem exists_get? (h : name ∈ ledger.names) : ∃ p, ledger.get? name = some p := by
  obtain ⟨p, hp, hname⟩ := List.mem_map.mp h
  exact Option.isSome_iff_exists.mp (List.find?_isSome.mpr ⟨p, hp, decide_eq_true hname⟩)

/-- A record is found under its name. -/
theorem get?_name (h : p ∈ ledger.entries) : ledger.get? p.name = some p := by
  obtain ⟨q, hq⟩ := exists_get? (List.mem_map_of_mem h)
  rw [hq, eq_of_name_eq (List.mem_of_find?_eq_some hq) h (name_of_get? hq)]

end Records

/-- The record of a name that was just mentioned is merged with the mention; the others stay. -/
theorem get?_add (ledger : Ledger) (name other : String) (m : Mention) :
    (ledger.add name m).get? other =
      if other = name then some (((ledger.get? name).getD (.named name)).merge m)
      else ledger.get? other := by
  change (entriesAfter ledger.entries name m).find? (·.name = other) = _
  unfold entriesAfter
  split
  · next hname =>
    -- a merge does not change the name
    have hfind : (ledger.entries.map fun p => if p.name = name then p.merge m else p).find?
          (·.name = other) =
        (ledger.get? other).map fun p => if p.name = name then p.merge m else p := by
      rw [List.find?_map, get?]
      congr 2
      funext p
      simp only [Function.comp]
      split <;> rfl
    rw [hfind]
    split
    · next heq =>
      subst heq
      obtain ⟨p, hp⟩ := exists_get? hname
      rw [hp, Option.map_some, if_pos (name_of_get? hp), Option.getD_some]
    · next hne =>
      cases hp : ledger.get? other with
      | none => rfl
      | some p => rw [Option.map_some, if_neg (by rwa [name_of_get? hp])]
  · next hname =>
    rw [List.find?_append, ← get?]
    split
    · next heq =>
      subst heq
      rw [get?_eq_none hname]
      simp
    · next hne => simp [Ne.symm hne]

/-- **The record of a name comes from what was said about it.** -/
theorem getD_get?_addAll (mentions : List (String × Mention)) (name : String) :
    ((empty.addAll mentions).get? name).getD (.named name) =
      (said name mentions).foldl Participant.merge (.named name) := by
  induction mentions using List.reverseRecOn with
  | nil => rfl
  | append_singleton mentions x ih =>
    obtain ⟨other, m⟩ := x
    rw [addAll_concat, get?_add]
    by_cases h : name = other
    · subst h
      have hsaid : said name (mentions ++ [(name, m)]) = said name mentions ++ [m] := by simp [said]
      rw [if_pos rfl, hsaid, List.foldl_append, ← ih]
      rfl
    · have hsaid : said name (mentions ++ [(other, m)]) = said name mentions := by
        simp [said, Ne.symm h]
      rw [if_neg h, hsaid, ih]

/-- The names come in the order in which they were mentioned first. -/
theorem names_addAll (mentions : List (String × Mention)) :
    (empty.addAll mentions).names = (mentions.map (·.1)).eraseDups := by
  induction mentions using List.reverseRecOn with
  | nil => rfl
  | append_singleton mentions x ih =>
    rw [addAll_concat, names_add, ih, List.map_append, List.map_singleton, eraseDups_concat]
    simp only [List.mem_eraseDups]

end Ledger

/-! ### What becomes of the parts of a record -/

theorem laterText_eq (new old : Option String) :
    laterText new old = (new.filter (· ≠ "")).or old := by
  unfold laterText
  cases new.filter (· ≠ "") <;> rfl

theorem laterWidth_eq (new old : Option Binary32) :
    laterWidth new old = (new.filter fun w => (0 : Binary32) < w).or old := by
  unfold laterWidth
  cases new.filter fun w => (0 : Binary32) < w <;> rfl

/-- The last of some texts that is not empty. -/
def lastText (texts : List String) : Option String := texts.findRev? (· ≠ "")

/-- The last of some widths that is positive. -/
def lastWidth (widths : List Binary32) : Option Binary32 :=
  widths.findRev? fun w => (0 : Binary32) < w

theorem mem_of_lastText {texts : List String} {text : String} (h : lastText texts = some text) :
    text ∈ texts := by
  rw [lastText, List.findRev?_eq_find?_reverse] at h
  exact List.mem_reverse.mp (List.mem_of_find?_eq_some h)

theorem pos_of_lastWidth {widths : List Binary32} {width : Binary32}
    (h : lastWidth widths = some width) : 0 < width := by
  rw [lastWidth, List.findRev?_eq_find?_reverse] at h
  simpa using List.find?_some h

/-- What is not a number is not positive. -/
theorem lastWidth_ne_nan (widths : List Binary32) : lastWidth widths ≠ some .nan :=
  fun h => Binary32.not_lt_nan (pos_of_lastWidth h)

namespace Participant

variable (mentions : List Mention) (p : Participant)

/-- A flag that is once set stays set. -/
theorem foldl_flag (field : Participant → Bool) (value : Mention → Bool)
    (h : ∀ p m, field (p.merge m) = (field p || value m)) :
    field (mentions.foldl merge p) = (field p || mentions.any value) := by
  induction mentions generalizing p with
  | nil => simp
  | cons m rest ih => rw [List.foldl_cons, ih, h, List.any_cons, Bool.or_assoc]

/-- A value is replaced by the last later one that counts. -/
theorem foldl_later {α : Type} (field : Participant → Option α) (value : Mention → Option α)
    (counts : α → Bool) (h : ∀ p m, field (p.merge m) = ((value m).filter counts).or (field p)) :
    field (mentions.foldl merge p) =
      ((mentions.filterMap value).findRev? counts).or (field p) := by
  induction mentions generalizing p with
  | nil => simp
  | cons m rest ih =>
    rw [List.foldl_cons, ih, h, ← Option.or_assoc]
    congr 1
    cases hm : value m with
    | none => rw [List.filterMap_cons_none hm, Option.filter_none, Option.or_none]
    | some v =>
      rw [List.filterMap_cons_some hm, List.findRev?, Option.filter]
      cases (rest.filterMap value).findRev? counts <;> cases counts v <;> rfl

/-- All texts are kept in the same way. -/
theorem foldl_text (field : Participant → Option String) (value : Mention → Option String)
    (h : ∀ p m, field (p.merge m) = laterText (value m) (field p)) (hp : field p = none) :
    field (mentions.foldl merge p) = lastText (mentions.filterMap value) := by
  rw [foldl_later mentions p field value (· ≠ "") fun p m => (h p m).trans (laterText_eq _ _), hp,
    Option.or_none, lastText]

/-- The places add up. -/
theorem mem_positions_foldl {s : Span} : s ∈ (mentions.foldl merge p).positions ↔
    s ∈ p.positions ∨ ∃ m ∈ mentions, m.position = some s := by
  induction mentions generalizing p with
  | nil => simp
  | cons m rest ih =>
    rw [List.foldl_cons, ih, Ledger.mem_positions_merge, or_comm (a := m.position = some s),
      or_assoc, List.exists_mem_cons_iff]

/-- The places stay in increasing order. -/
theorem pairwise_positions_foldl (h : p.positions.Pairwise fun s t => s.before t = true) :
    (mentions.foldl merge p).positions.Pairwise fun s t => s.before t = true := by
  induction mentions generalizing p with
  | nil => exact h
  | cons m rest ih =>
    apply ih
    rw [merge]
    cases m.position with
    | none => exact h
    | some s => exact pairwise_insertSpan h

/-- The record says what some mentions said, and nothing else. -/
structure MadeOf (p : Participant) (mentions : List Mention) : Prop where
  explicit : p.explicit = true ↔ ∃ m ∈ mentions, m.explicit = true
  isStarter : p.isStarter = true ↔ ∃ m ∈ mentions, m.isStarter = true
  label : p.label = lastText (mentions.filterMap (·.label))
  stereotype : p.stereotype = lastText (mentions.filterMap (·.stereotype))
  type : p.type = lastText (mentions.filterMap (·.type))
  color : p.color = lastText (mentions.filterMap (·.color))
  groupId : p.groupId = lastText (mentions.filterMap (·.groupId))
  width : p.width = lastWidth (mentions.filterMap (·.width))
  width_ne_nan : p.width ≠ some .nan
  mem_positions : ∀ s, s ∈ p.positions ↔ ∃ m ∈ mentions, m.position = some s
  positions_increase : p.positions.Pairwise fun s t => s.before t = true

/-- **A record says what was said about its name.** -/
theorem madeOf (name : String) : (mentions.foldl merge (named name)).MadeOf mentions := by
  have hwidth : (mentions.foldl merge (named name)).width =
      lastWidth (mentions.filterMap (·.width)) := by
    rw [foldl_later mentions _ (·.width) (·.width) (fun w => (0 : Binary32) < w)
      fun p m => laterWidth_eq _ _]
    exact Option.or_none
  exact {
    explicit := by
      rw [foldl_flag mentions _ (·.explicit) (·.explicit) fun p m => rfl]
      exact List.any_eq_true
    isStarter := by
      rw [foldl_flag mentions _ (·.isStarter) (·.isStarter) fun p m => rfl]
      exact List.any_eq_true
    label := foldl_text mentions _ (·.label) (·.label) (fun p m => rfl) rfl
    stereotype := foldl_text mentions _ (·.stereotype) (·.stereotype) (fun p m => rfl) rfl
    type := foldl_text mentions _ (·.type) (·.type) (fun p m => rfl) rfl
    color := foldl_text mentions _ (·.color) (·.color) (fun p m => rfl) rfl
    groupId := foldl_text mentions _ (·.groupId) (·.groupId) (fun p m => rfl) rfl
    width := hwidth
    width_ne_nan := hwidth ▸ lastWidth_ne_nan _
    mem_positions := fun s => by
      rw [mem_positions_foldl]
      exact or_iff_right List.not_mem_nil
    positions_increase := pairwise_positions_foldl mentions _ .nil }

end Participant

/-! ### The whole ledger -/

namespace Ledger

/-- Whoever is in the ledger has a record that says what was said about the name. -/
theorem exists_madeOf {mentions : List (String × Mention)} {name : String}
    (h : name ∈ (empty.addAll mentions).names) :
    ∃ p, (empty.addAll mentions).get? name = some p ∧ p.MadeOf (said name mentions) := by
  obtain ⟨p, hp⟩ := exists_get? h
  have hmade := getD_get?_addAll mentions name
  rw [hp, Option.getD_some] at hmade
  exact ⟨p, hp, hmade ▸ Participant.madeOf _ name⟩

/-- Every record says what was said about its name. -/
theorem madeOf_of_mem {mentions : List (String × Mention)} {p : Participant}
    (h : p ∈ (empty.addAll mentions).entries) : p.MadeOf (said p.name mentions) := by
  obtain ⟨q, hq, hmade⟩ := exists_madeOf (List.mem_map_of_mem h)
  obtain rfl : p = q := Option.some.inj ((get?_name h).symm.trans hq)
  exact hmade

/-- Every record is that of a name which was mentioned. -/
theorem exists_mention {mentions : List (String × Mention)} {p : Participant}
    (h : p ∈ (empty.addAll mentions).entries) : ∃ m, (p.name, m) ∈ mentions := by
  have hname : p.name ∈ (empty.addAll mentions).names := List.mem_map_of_mem h
  rw [names_addAll, List.mem_eraseDups] at hname
  obtain ⟨x, hx, hname⟩ := List.mem_map.mp hname
  exact ⟨x.2, hname ▸ hx⟩

/-- The first starter is found by its name. -/
theorem starter?_eq {ledger : Ledger} {starts : String → Bool}
    (h : ∀ p ∈ ledger.entries, p.isStarter = starts p.name) :
    ledger.starter? = (ledger.names.find? starts).bind ledger.get? := by
  have hfind : ledger.starter? = ledger.entries.find? (starts ∘ (·.name)) := List.find?_congr h
  rw [names, List.find?_map, ← hfind]
  cases hp : ledger.starter? with
  | none => rfl
  | some p => exact (get?_name (List.mem_of_find?_eq_some hp)).symm

end Ledger

/-- **The ledger follows from its history.** Its names come in the order in which they were added
    first, each once. The record of a name says what was added under this name, whatever came in
    between. The starter is the first of the names that was added as one. -/
theorem ledger_follows_from_history (mentions : List (String × Mention)) :
    let ledger := Ledger.empty.addAll mentions
    ledger.names = (mentions.map (·.1)).eraseDups ∧
      (∀ name ∈ ledger.names, ∃ p, ledger.get? name = some p ∧ p.name = name ∧
        p.MadeOf (said name mentions)) ∧
      ledger.starter? = (ledger.names.find? fun name =>
        (said name mentions).any (·.isStarter)).bind ledger.get? := by
  intro ledger
  refine ⟨Ledger.names_addAll mentions, ?_, Ledger.starter?_eq fun p hp => ?_⟩
  · intro name hname
    obtain ⟨p, hp, hmade⟩ := Ledger.exists_madeOf hname
    exact ⟨p, hp, Ledger.name_of_get? hp, hmade⟩
  · rw [Bool.eq_iff_iff, (Ledger.madeOf_of_mem hp).isStarter, List.any_eq_true]

-- A use erases nothing, a later label replaces the first one, and an empty color does not count.
example :
    let ledger := Ledger.empty.addAll
      [("A", { explicit := true, label := some "Alice", color := some "#fff" }),
        ("A", .of ⟨8, 9, 2, 0⟩),
        ("A", { explicit := true, label := some "Alicia", color := some "" })]
    ledger.entries = [{ Participant.named "A" with
      explicit := true, label := some "Alicia", color := some "#fff",
      positions := [⟨8, 9, 2, 0⟩] }] := by
  decide

end SequenceDiagram
