import SequenceDiagram.Proofs.Document.OpenSenders
import SequenceDiagram.Proofs.Participant.History
import SequenceDiagram.Proofs.Participant.Likeness

namespace SequenceDiagram

open Syntax

/-!
# A starter from outside

A starter that is given from outside takes the place of the declared one, and nothing shows which of
the two ways was taken, but for the place where a declared starter is written.

* `Ledger.placed` adds that place to the record of a name. By `insertSpan_comm` it does not matter
  whether other mentions are added before or after it, which is `Ledger.placed_addAll`.
* `Program.withStarter` declares a starter in a program.
* `ledger_withStarter`: the ledger is the same as with a starter from outside, but for that place.
* `given_starter_is_declared` says the same of everything else.
-/

/-! ### One more place -/

/-- A place may be inserted before or after another one behind it. -/
theorem insertSpan_comm_of_before {s t : Span} (h : s.before t = true) (spans : List Span) :
    insertSpan s (insertSpan t spans) = insertSpan t (insertSpan s spans) := by
  induction spans with
  | nil =>
    show insertSpan s [t] = insertSpan t [s]
    rw [insertSpan_before h, insertSpan_behind h]
    rfl
  | cons u rest ih =>
    rcases t.before_cases u with rfl | htu | hut
    · rw [insertSpan_self, insertSpan_before h, insertSpan_behind h, insertSpan_self]
    · rw [insertSpan_before htu, insertSpan_before h, insertSpan_before (Span.before_trans h htu),
        insertSpan_behind h, insertSpan_before htu]
    · rw [insertSpan_behind hut]
      rcases s.before_cases u with rfl | hsu | hus
      · rw [insertSpan_self, insertSpan_self, insertSpan_behind hut]
      · rw [insertSpan_before hsu, insertSpan_before hsu, insertSpan_behind h,
          insertSpan_behind hut]
      · rw [insertSpan_behind hus, insertSpan_behind hus, insertSpan_behind hut, ih]

/-- Two places may be inserted in either order. -/
theorem insertSpan_comm (s t : Span) (spans : List Span) :
    insertSpan s (insertSpan t spans) = insertSpan t (insertSpan s spans) := by
  rcases s.before_cases t with rfl | h | h
  · rfl
  · exact insertSpan_comm_of_before h spans
  · exact (insertSpan_comm_of_before h spans).symm

namespace Participant

/-- The record with one more place, if it is that of a name. -/
def placed (p : Participant) (name : String) (s : Span) : Participant :=
  if p.name = name then { p with positions := insertSpan s p.positions } else p

@[simp] theorem name_placed (p : Participant) (name : String) (s : Span) :
    (p.placed name s).name = p.name := by
  unfold placed
  split <;> rfl

theorem placed_of_ne {p : Participant} {name : String} (h : p.name ≠ name) (s : Span) :
    p.placed name s = p := if_neg h

/-- A mention is merged before or after the place. -/
theorem merge_placed (p : Participant) (name : String) (s : Span) (m : Mention) :
    (p.placed name s).merge m = (p.merge m).placed name s := by
  by_cases h : p.name = name
  · rw [placed, placed, if_pos h, if_pos (show (p.merge m).name = name from h)]
    unfold merge
    cases m.position with
    | none => rfl
    | some t => simp only [insertSpan_comm]
  · rw [placed_of_ne h, placed_of_ne (show (p.merge m).name ≠ name from h)]

/-- To merge a mention with a place is to merge the mention, and then the place. -/
theorem merge_place (p : Participant) {m : Mention} (hm : m.position = none) (s : Span) :
    p.merge { m with position := some s } = (p.merge m).placed p.name s := by
  simp only [placed, merge, hm, if_true]

theorem unplaced_placed (p : Participant) (name : String) (s : Span) :
    (p.placed name s).unplaced = p.unplaced := by
  unfold placed
  split <;> rfl

end Participant

namespace Ledger

theorem names_placed_entries (entries : List Participant) (name : String) (s : Span) :
    (entries.map (·.placed name s)).map (·.name) = entries.map (·.name) := by
  rw [List.map_map]
  exact List.map_congr_left fun p _ => p.name_placed name s

/-- The ledger with one more place in the record of a name. -/
def placed (ledger : Ledger) (name : String) (s : Span) : Ledger where
  entries := ledger.entries.map (·.placed name s)
  nodup := by
    rw [names_placed_entries]
    exact ledger.nodup

theorem eq_of_entries_eq {ledger other : Ledger} (h : ledger.entries = other.entries) :
    ledger = other := by
  cases ledger
  cases other
  congr

variable {ledger : Ledger} {name : String}

/-- A mention is added before or after the place. -/
theorem placed_add (h : name ∈ ledger.names) (s : Span) (other : String) (m : Mention) :
    (ledger.placed name s).add other m = (ledger.add other m).placed name s := by
  apply eq_of_entries_eq
  show entriesAfter (ledger.entries.map (·.placed name s)) other m =
    (entriesAfter ledger.entries other m).map (·.placed name s)
  unfold entriesAfter
  rw [names_placed_entries]
  split
  · rw [List.map_map, List.map_map]
    refine List.map_congr_left fun p _ => ?_
    simp only [Function.comp, Participant.name_placed]
    split
    · exact p.merge_placed name s m
    · rfl
  · next hnew =>
    -- a new record is not that of the name
    have hne : other ≠ name := fun heq => hnew (heq ▸ h)
    rw [List.map_append, List.map_singleton, Participant.placed_of_ne (by simpa using hne)]

/-- The place is among those of the name. -/
theorem exists_get?_placed (h : name ∈ ledger.names) (s : Span) :
    ∃ p, (ledger.placed name s).get? name = some p ∧ s ∈ p.positions := by
  have hnames : (ledger.placed name s).names = ledger.names := names_placed_entries ..
  obtain ⟨p, hp⟩ := exists_get? (hnames ▸ h)
  obtain ⟨q, _, rfl⟩ := List.mem_map.mp (List.mem_of_find?_eq_some hp)
  refine ⟨_, hp, ?_⟩
  rw [Participant.placed, if_pos (by simpa using name_of_get? hp)]
  exact mem_insertSpan.mpr (.inl rfl)

theorem placed_addAll (h : name ∈ ledger.names) (s : Span) (mentions : List (String × Mention)) :
    (ledger.placed name s).addAll mentions = (ledger.addAll mentions).placed name s := by
  induction mentions generalizing ledger with
  | nil => rfl
  | cons x rest ih =>
    show ((ledger.placed name s).add x.1 x.2).addAll rest =
      ((ledger.add x.1 x.2).addAll rest).placed name s
    rw [placed_add h, ih (names_subset_add ledger x.1 x.2 h)]

/-- To add a mention with a place is to add the mention, and then the place. -/
theorem add_place (ledger : Ledger) (name : String) {m : Mention} (hm : m.position = none)
    (s : Span) :
    ledger.add name { m with position := some s } = (ledger.add name m).placed name s := by
  apply eq_of_entries_eq
  show entriesAfter ledger.entries name { m with position := some s } =
    (entriesAfter ledger.entries name m).map (·.placed name s)
  unfold entriesAfter
  split
  · rw [List.map_map]
    refine List.map_congr_left fun p _ => ?_
    simp only [Function.comp]
    split
    · next heq =>
      subst heq
      exact p.merge_place hm s
    · next hne => exact (Participant.placed_of_ne hne s).symm
  · next hnew =>
    -- the other records have other names
    have hothers : ledger.entries.map (·.placed name s) = ledger.entries.map id :=
      List.map_congr_left fun p hp =>
        Participant.placed_of_ne (fun heq => hnew (List.mem_map.mpr ⟨p, hp, heq⟩)) s
    rw [List.map_append, List.map_singleton, hothers, List.map_id,
      Participant.merge_place _ hm]
    rfl

end Ledger

/-! ### A declared starter -/

/-- A starter from outside counts if it has a name. -/
theorem effectiveOverride_some {name : String} (h : name ≠ "") :
    effectiveOverride (some name) = some name :=
  Option.filter_eq_some_iff.mpr ⟨rfl, decide_eq_true h⟩

namespace Syntax.Program

/-- What the head of a program lists, if it has one. -/
def headItems (program : Program) : List HeadItem := (program.head.map (·.items)).getD []

/-- The program with a declaration of its starter instead of the one that it has, if any. -/
def withStarter (program : Program) (name : Token) (span : Span) : Program :=
  { program with head := some { items := program.headItems, starter := some ⟨some name, span⟩ } }

theorem mentions_withStarter (program : Program) (name : Token) (span : Span) :
    (program.withStarter name span).mentions none =
      program.headItems.flatMap (·.mentions) ++
        (name.text, { isStarter := true, position := some name.span }) ::
          mentionsOf program.statements := by
  show List.flatMap _ [_] ++ [] ++ mentionsOf program.statements = _
  rw [List.flatMap_singleton, List.append_nil]
  exact List.append_assoc ..

/-- A starter from outside comes where the declared one would come. -/
theorem mentions_some (program : Program) {name : String} (h : name ≠ "") :
    program.mentions (some name) =
      program.headItems.flatMap (·.mentions) ++
        (name, { isStarter := true }) :: mentionsOf program.statements := by
  have hhead : program.head.toList.flatMap (·.mentions false) =
      program.headItems.flatMap (·.mentions) := by
    unfold headItems
    cases program.head with
    | none => rfl
    | some head =>
      show (head.items.flatMap _ ++ (Option.filter _ _).toList.map _) ++ [] = _
      simp
  rw [mentions, effectiveOverride_some h]
  show program.head.toList.flatMap (·.mentions false) ++ [_] ++ _ = _
  rw [hhead, List.append_assoc]
  rfl

end Syntax.Program

section Starter

variable (program : Program) {name : String} (place span : Span)

/-- The ledger is the same as with a starter from outside, but for the place of the declaration. -/
theorem ledger_withStarter (h : name ≠ "") :
    (collect (program.withStarter ⟨name, place⟩ span) none).ledger =
      (collect program (some name)).ledger.placed name place := by
  rw [ledger_collect, ledger_collect, Program.mentions_withStarter, Program.mentions_some program h,
    Ledger.addAll_append, Ledger.addAll_append]
  generalize Ledger.empty.addAll (program.headItems.flatMap (·.mentions)) = ledger
  show (ledger.add name { isStarter := true, position := some place }).addAll _ =
    ((ledger.add name { isStarter := true }).addAll _).placed name place
  have hadd := ledger.add_place name (m := { isStarter := true }) rfl place
  rw [hadd, Ledger.placed_addAll (ledger.mem_names_add name _)]

/-- Nothing but that place is different. -/
theorem agrees_withStarter (h : name ≠ "") :
    (collect program (some name)).Agrees
      (collect (program.withStarter ⟨name, place⟩ span) none) where
  entries := by
    rw [ledger_withStarter program place span h]
    show _ = (List.map _ _).map _
    rw [List.map_map]
    exact List.map_congr_left fun p _ => (p.unplaced_placed name place).symm
  starter := by
    rw [starter_collect, starter_collect, effectiveOverride_some h]
    rfl
  implicitSender := by
    rw [Bool.eq_iff_iff, implicitSender_collect, implicitSender_collect]
    rfl

theorem effectiveStarter_withStarter (h : name ≠ "") :
    effectiveStarter program (some name) =
      effectiveStarter (program.withStarter ⟨name, place⟩ span) none := by
  rw [effectiveStarter, effectiveStarter, effectiveOverride_some h]
  rfl

theorem topOrigin_withStarter (h : name ≠ "") :
    topOrigin program (some name) =
      topOrigin (program.withStarter ⟨name, place⟩ span) none := by
  have hagrees := agrees_withStarter program place span h
  unfold topOrigin
  dsimp only
  rw [effectiveStarter_withStarter program place span h, hagrees.implicitSender,
    hagrees.orderedNames]

end Starter

/-- **A starter from outside is as good as a declared one.** The document is the same, and so are
    the lifelines, who starts and whether the sentinel is asked for. The ledger differs only in the
    place where the starter is declared, which is noted for its name. -/
theorem given_starter_is_declared (program : Program) (name : String) (place span : Span)
    (h : name ≠ "") :
    let declared := program.withStarter ⟨name, place⟩ span
    interpret program (some name) = interpret declared none ∧
      orderParticipants (collect program (some name)) = orderParticipants (collect declared none) ∧
      (collect program (some name)).starter = (collect declared none).starter ∧
      (collect program (some name)).implicitSender = (collect declared none).implicitSender ∧
      (collect declared none).ledger = (collect program (some name)).ledger.placed name place ∧
      ∃ p, (collect declared none).ledger.get? name = some p ∧ place ∈ p.positions := by
  intro declared
  have hagrees := agrees_withStarter program place span h
  have hledger := ledger_withStarter program place span h
  have hnames : name ∈ (collect program (some name)).ledger.names := by
    apply mem_names_collect
    rw [starter_collect, effectiveOverride_some h]
    rfl
  have hinterpret : interpret program (some name) = interpret declared none := by
    unfold interpret
    rw [topOrigin_withStarter program place span h,
      effectiveStarter_withStarter program place span h]
    rfl
  exact ⟨hinterpret, hagrees.orderParticipants, hagrees.starter, hagrees.implicitSender, hledger,
    hledger ▸ Ledger.exists_get?_placed hnames place⟩

/-- The declared starter does not count if another one is given: it is not even mentioned. -/
theorem cron_starts_instead :
    let program := parse "@Starter(User)\nA.m"
    let declared := program.withStarter ⟨"Cron", ⟨9, 13, 1, 9⟩⟩ ⟨0, 14, 1, 0⟩
    "Cron" ≠ "" ∧ interpret program (some "Cron") = interpret declared none ∧
      (collect declared none).ledger =
        (collect program (some "Cron")).ledger.placed "Cron" ⟨9, 13, 1, 9⟩ ∧
      orderedNames (collect program (some "Cron")) = ["Cron", "A"] := by
  intro program declared
  have hgiven := given_starter_is_declared program "Cron" ⟨9, 13, 1, 9⟩ ⟨0, 14, 1, 0⟩ (by decide)
  exact ⟨by decide, hgiven.1, hgiven.2.2.2.2.1, by decide +kernel⟩

end SequenceDiagram
