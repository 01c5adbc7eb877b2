import SequenceDiagram.Proofs.Participant.History
import SequenceDiagram.Proofs.Participant.LifelineOrder

namespace SequenceDiagram

/-!
# The canonical order

The order of the lifelines for any ledger and any starter, which need not come from one program.

* `Context.Leads` says who stands before all others, `leadingName?_eq_some_iff_leads` that it is the
  name which the order starts with.
* `exists_orderedNames_eq`: behind that name come the declared ones and then the others, both in the
  order of the ledger.
* `map_left_orderParticipants`: the neighbours are the names, moved by one place.
* `indexOf?_eq_some_iff`: a name is found exactly where it stands.
* `canonical_order` puts this together.
-/

/-! ### Who leads -/

/-- The name has an explicit record. -/
def Ledger.Declares (ledger : Ledger) (name : String) : Prop :=
  ∃ p ∈ ledger.entries, p.name = name ∧ p.explicit = true

theorem Ledger.declares_iff {ledger : Ledger} {name : String} :
    ledger.Declares name ↔ (ledger.get? name).any (·.explicit) = true := by
  rw [Option.any_eq_true]
  constructor
  · rintro ⟨p, hp, rfl, hexplicit⟩
    exact ⟨p, get?_name hp, hexplicit⟩
  · rintro ⟨p, hp, hexplicit⟩
    exact ⟨p, List.mem_of_find?_eq_some hp, name_of_get? hp, hexplicit⟩

/-- The name stands before all others: it is the starter and was not declared, or it is the sentinel
    and somebody is needed to send. -/
def Context.Leads (context : Context) (name : String) : Prop :=
  context.starter = some name ∧ ¬ context.ledger.Declares name ∨
    context.starter = none ∧ context.implicitSender = true ∧ name = sentinel

theorem leadingName?_eq_some_iff_leads {context : Context} {name : String} :
    leadingName? context = some name ↔ context.Leads name := by
  unfold leadingName? Context.Leads
  cases context.starter with
  | none => cases context.implicitSender <;> simp [eq_comm]
  | some starter =>
    dsimp only
    split
    · next hdeclared =>
      rw [← Ledger.declares_iff] at hdeclared
      simp only [Option.some.injEq, reduceCtorEq, false_and, or_false, false_iff, not_and, not_not]
      rintro rfl
      exact hdeclared
    · next hdeclared =>
      rw [← Ledger.declares_iff] at hdeclared
      simp only [Option.some.injEq, reduceCtorEq, false_and, or_false, iff_self_and]
      rintro rfl
      exact hdeclared

/-! ### Behind the leading name -/

/-- Behind the leading name come those that are declared, and then the others. -/
theorem exists_orderedNames_eq (context : Context) : ∃ declared others,
    orderedNames context = (leadingName? context).toList ++ (declared ++ others) ∧
      declared.Sublist context.ledger.names ∧ others.Sublist context.ledger.names ∧
      (∀ name ∈ declared, context.ledger.Declares name) ∧
      ∀ name ∈ others, ¬ context.ledger.Declares name := by
  refine ⟨((context.ledger.entries.filter (·.explicit)).map (·.name)).filter
      fun name => some name ≠ leadingName? context,
    ((context.ledger.entries.filter (!·.explicit)).map (·.name)).filter
      fun name => some name ≠ leadingName? context, ?_, ?_, ?_, ?_, ?_⟩
  · rw [← List.filter_append, ← List.map_append]
    rfl
  · exact List.filter_sublist.trans (List.filter_sublist.map _)
  · exact List.filter_sublist.trans (List.filter_sublist.map _)
  · intro name hname
    obtain ⟨p, hp, rfl⟩ := List.mem_map.mp (List.mem_filter.mp hname).1
    obtain ⟨hp, hexplicit⟩ := List.mem_filter.mp hp
    exact ⟨p, hp, rfl, hexplicit⟩
  · rintro name hname ⟨q, hq, hsame, hexplicit⟩
    obtain ⟨p, hp, rfl⟩ := List.mem_map.mp (List.mem_filter.mp hname).1
    obtain ⟨hp, hother⟩ := List.mem_filter.mp hp
    -- a name has one record
    rw [← Ledger.eq_of_name_eq hq hp hsame, hexplicit] at hother
    cases hother

/-! ### Neighbours and places -/

theorem map_snd_withLeft (left : String) (names : List String) :
    (withLeft left names).map Prod.snd = (left :: names).dropLast := by
  induction names generalizing left with
  | nil => rfl
  | cons name rest ih => rw [withLeft, List.map_cons, ih, List.dropLast_cons_cons]

/-- The neighbours are the names, moved by one place. -/
theorem map_left_orderParticipants (context : Context) :
    (orderParticipants context).map (·.left) = ("" :: orderedNames context).dropLast := by
  rw [orderParticipants, List.map_map]
  exact map_snd_withLeft "" (orderedNames context)

/-- If everyone has one lifeline, then a name is found exactly where it stands. -/
theorem indexOf?_eq_some_iff {order : List OrderedParticipant} (h : (order.map (·.name)).Nodup)
    {name : String} {i : Nat} :
    indexOf? order name = some i ↔ order[i]?.map (·.name) = some name := by
  constructor
  · intro hindex
    obtain ⟨hlt, hname, -⟩ := List.findIdx?_eq_some_iff_getElem.mp hindex
    rw [List.getElem?_eq_getElem hlt, Option.map_some, of_decide_eq_true hname]
  · intro hname
    rw [← List.getElem?_map] at hname
    obtain ⟨hlt, hname⟩ := List.getElem?_eq_some_iff.mp hname
    have hsplit : order.map (·.name) =
        (order.map (·.name)).take i ++ name :: (order.map (·.name)).drop (i + 1) := by
      rw [← hname, List.getElem_cons_drop, List.take_append_drop]
    have hbefore : name ∉ (order.map (·.name)).take i := by
      rw [hsplit] at h
      exact fun hmem => (List.nodup_append.mp h).2.2 name hmem name List.mem_cons_self rfl
    rw [indexOf?_eq_length hsplit hbefore, List.length_take_of_le hlt.le]

/-! ### The whole order -/

/-- **The canonical order.** Everyone in the ledger has one lifeline, and so has the starter, or the
    sentinel if somebody is needed to send. Who leads comes first, then those that are declared, and
    then the others, both in the order of the ledger. The neighbour of a lifeline is the one before
    it, and a name is found exactly where it stands. -/
theorem canonical_order (mentions : List (String × Mention)) (starter : Option String)
    (implicitSender : Bool) :
    let context : Context := ⟨Ledger.empty.addAll mentions, starter, implicitSender⟩
    let order := orderParticipants context
    (order.map (·.name)).Nodup ∧
      (∀ name, name ∈ order.map (·.name) ↔ name ∈ context.ledger.names ∨ starter = some name ∨
        starter = none ∧ implicitSender = true ∧ name = sentinel) ∧
      (∃ first declared others, order.map (·.name) = first.toList ++ (declared ++ others) ∧
        (∀ name, first = some name ↔ context.Leads name) ∧
        declared.Sublist context.ledger.names ∧ others.Sublist context.ledger.names ∧
        (∀ name ∈ declared, context.ledger.Declares name) ∧
        ∀ name ∈ others, ¬ context.ledger.Declares name) ∧
      order.map (·.left) = ("" :: order.map (·.name)).dropLast ∧
      ∀ name i, indexOf? order name = some i ↔ order[i]?.map (·.name) = some name := by
  intro context order
  have hnames : order.map (·.name) = orderedNames context := map_name_orderParticipants context
  have hnodup : (order.map (·.name)).Nodup := hnames ▸ nodup_orderedNames context
  refine ⟨hnodup, ?_, ?_, ?_, fun name i => indexOf?_eq_some_iff hnodup⟩
  · intro name
    rw [hnames, mem_orderedNames, leadingName?_eq_some_iff_leads]
    constructor
    · rintro ((⟨hstarter, -⟩ | hsentinel) | hledger)
      · exact .inr (.inl hstarter)
      · exact .inr (.inr hsentinel)
      · exact .inl hledger
    · rintro (hledger | hstarter | hsentinel)
      · exact .inr hledger
      · -- a starter that is declared is in the ledger
        by_cases hdeclared : context.ledger.Declares name
        · obtain ⟨p, hp, rfl, -⟩ := hdeclared
          exact .inr (List.mem_map_of_mem hp)
        · exact .inl (.inl ⟨hstarter, hdeclared⟩)
      · exact .inl (.inr hsentinel)
  · obtain ⟨declared, others, horder, hparts⟩ := exists_orderedNames_eq context
    exact ⟨leadingName? context, declared, others, hnames.trans horder,
      fun name => leadingName?_eq_some_iff_leads, hparts⟩
  · rw [hnames]
    exact map_left_orderParticipants context

end SequenceDiagram
