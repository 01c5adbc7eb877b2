import SequenceDiagram.Proofs.Participant.Appearance

namespace SequenceDiagram

/-!
# The order of implicit lifelines

* `nodup_orderedNames`: everyone has one lifeline.
* `orderedNames_sublist`: implicit participants keep the order of the ledger.
* `implicit_in_order_of_appearance`: their lifelines stand in the order in which they come first in
  the source. Only the sentinel, if it was put in as the sender of some message, stands before the
  others wherever it comes.
-/

/-! ### Places among the lifelines -/

/-- A name that does not come before is found where it stands. -/
theorem indexOf?_eq_length {order : List OrderedParticipant} {before after : List String}
    {name : String} (h : order.map (·.name) = before ++ name :: after) (hbefore : name ∉ before) :
    indexOf? order name = some before.length := by
  have hindex : indexOf? order name = (order.map (·.name)).findIdx? (· = name) := by
    rw [indexOf?, List.findIdx?_map]
    rfl
  rw [hindex, h, List.findIdx?_append, List.findIdx?_eq_none_iff.mpr]
  · simp [List.findIdx?_cons]
  · intro x hx
    simp only [decide_eq_false_iff_not]
    rintro rfl
    exact hbefore hx

/-- Of two different names, the one that stands first is found first. -/
theorem exists_indexOf?_lt {order : List OrderedParticipant} {a b : String}
    (h : [a, b].Sublist (order.map (·.name))) (hnodup : (order.map (·.name)).Nodup) :
    ∃ i j, indexOf? order a = some i ∧ indexOf? order b = some j ∧ i < j := by
  obtain ⟨front, back, hsplit, ha, hb⟩ := List.cons_sublist_iff.mp h
  obtain ⟨before, between, rfl, hbefore⟩ := List.eq_append_cons_of_mem ha
  obtain ⟨between', after, rfl, hbetween⟩ :=
    List.eq_append_cons_of_mem (List.singleton_sublist.mp hb)
  have hfirst : order.map (·.name) = before ++ a :: (between ++ (between' ++ b :: after)) := by
    rw [hsplit]
    simp
  have hlast : order.map (·.name) = (before ++ a :: (between ++ between')) ++ b :: after := by
    rw [hsplit]
    simp
  have hnot : b ∉ before ++ a :: (between ++ between') := by
    rw [hlast] at hnodup
    intro hmem
    exact (List.nodup_append.mp hnodup).2.2 b hmem b List.mem_cons_self rfl
  refine ⟨_, _, indexOf?_eq_length hfirst hbefore, indexOf?_eq_length hlast hnot, ?_⟩
  rw [List.length_append, List.length_cons]
  omega

/-! ### The order of the ledger -/

section Order

variable {context : Context} {p q : Participant}

/-- Everyone has one lifeline. -/
theorem nodup_orderedNames (context : Context) : (orderedNames context).Nodup := by
  have hperm := List.filter_append_perm (·.explicit) context.ledger.entries
  have hnodup := (hperm.map (·.name)).nodup_iff.mpr context.ledger.nodup
  unfold orderedNames
  cases hlead : leadingName? context with
  | none => simpa using hnodup
  | some lead =>
    refine List.nodup_append.mpr ⟨by simp, hnodup.filter _, ?_⟩
    intro a ha b hb hab
    simp only [Option.toList_some, List.mem_singleton] at ha
    simp [← hab, ha] at hb

/-- Implicit participants keep the order of the ledger, unless one of them leads. -/
theorem orderedNames_sublist (hp : p ∈ context.ledger.entries) (hq : q ∈ context.ledger.entries)
    (hexplicit : p.explicit = false) (hexplicit' : q.explicit = false)
    (hlead : leadingName? context ≠ some p.name) (hlead' : leadingName? context ≠ some q.name)
    (h : [p.name, q.name].Sublist context.ledger.names) :
    [p.name, q.name].Sublist (orderedNames context) := by
  have hentries : [p, q].Sublist context.ledger.entries := by
    obtain ⟨found, hfound, hnames⟩ := List.sublist_map_iff.mp h
    obtain ⟨p', others, rfl, hp', hrest⟩ := List.map_eq_cons_iff.mp hnames.symm
    obtain ⟨q', nothing, rfl, hq', hnil⟩ := List.map_eq_cons_iff.mp hrest
    obtain rfl := List.map_eq_nil_iff.mp hnil
    obtain rfl := Ledger.eq_of_name_eq (hfound.subset (by simp)) hp hp'
    obtain rfl := Ledger.eq_of_name_eq (hfound.subset (by simp)) hq hq'
    exact hfound
  have himplicit : [p, q].Sublist (context.ledger.entries.filter (!·.explicit)) := by
    have := hentries.filter (!·.explicit)
    simpa [hexplicit, hexplicit'] using this
  have hnames : [p.name, q.name].Sublist ((context.ledger.entries.filter (·.explicit) ++
      context.ledger.entries.filter (!·.explicit)).map (·.name)) :=
    List.Sublist.map Participant.name (himplicit.trans (List.sublist_append_right _ _))
  have hothers := hnames.filter fun name => some name ≠ leadingName? context
  rw [List.filter_cons_of_pos (by simpa using hlead.symm),
    List.filter_cons_of_pos (by simpa using hlead'.symm), List.filter_nil] at hothers
  exact hothers.trans (List.sublist_append_right _ _)

/-- Who leads stands before all others. -/
theorem orderedNames_sublist_of_lead {a b : String} (hlead : leadingName? context = some a)
    (hb : b ∈ context.ledger.names) (hne : a ≠ b) : [a, b].Sublist (orderedNames context) := by
  have hmem : b ∈ orderedNames context := mem_orderedNames.mpr (.inr hb)
  unfold orderedNames at hmem ⊢
  simp only [hlead, Option.toList_some, List.singleton_append, List.mem_cons, hne.symm,
    false_or] at hmem ⊢
  exact (List.singleton_sublist.mpr hmem).cons_cons a

end Order

/-! ### The order of appearance -/

/-- The participant is the sentinel, which was put in as the sender of some message. -/
def Context.LedBy (context : Context) (p : Participant) : Prop :=
  context.starter = none ∧ context.implicitSender = true ∧ p.name = sentinel

/-- An implicit participant leads only if it is the sentinel. -/
theorem leadingName?_eq_some_iff {program : Syntax.Program} {starter : Option String} {p : Participant}
    (hp : p ∈ (collect program starter).ledger.entries) (himplicit : p.Implicit) :
    leadingName? (collect program starter) = some p.name ↔ (collect program starter).LedBy p := by
  have hnot : (collect program starter).starter ≠ some p.name := fun h =>
    himplicit.not_announced hp (Syntax.Program.mem_announced_of_starter h)
  unfold leadingName? Context.LedBy
  cases h : (collect program starter).starter with
  | none =>
    cases himplicitSender : (collect program starter).implicitSender with
    | false => simp
    | true => simp [eq_comm]
  | some name =>
    rw [h] at hnot
    dsimp only
    split <;> simp_all

section Lifelines

variable {source : String} {starter : Option String} {p q : Participant}

/-- An implicit participant comes first somewhere, and it has a lifeline. -/
theorem exists_firstStart?_indexOf? (hp : p ∈ (collect (parse source) starter).ledger.entries)
    (himplicit : p.Implicit) : ∃ s i, p.firstStart? = some s ∧
      indexOf? (orderParticipants (collect (parse source) starter)) p.name = some i := by
  obtain ⟨before, s, after, -, -, hs⟩ := exists_first_mention hp himplicit
  have hmem : p.name ∈ (orderParticipants (collect (parse source) starter)).map (·.name) := by
    rw [map_name_orderParticipants, mem_orderedNames]
    exact .inr (List.mem_map_of_mem hp)
  obtain ⟨front, back, hsplit, hfirst⟩ := List.eq_append_cons_of_mem hmem
  exact ⟨s.start, _, hs, indexOf?_eq_length hsplit hfirst⟩

/-- Of two implicit participants, the sentinel that was put in has the first lifeline, and else the
    one that comes first in the source. -/
theorem implicit_in_lifeline_order (hp : p ∈ (collect (parse source) starter).ledger.entries)
    (hq : q ∈ (collect (parse source) starter).ledger.entries) (himplicit : p.Implicit)
    (himplicit' : q.Implicit) (hne : p.name ≠ q.name) {s t : Nat}
    (hs : p.firstStart? = some s) (ht : q.firstStart? = some t) :
    let context := collect (parse source) starter
    [p.name, q.name].Sublist (orderedNames context) ∧ ¬ context.LedBy q ∧
        (context.LedBy p ∨ s < t) ∨
      [q.name, p.name].Sublist (orderedNames context) ∧
        (context.LedBy q ∨ ¬ context.LedBy p ∧ t < s) := by
  intro context
  have hlead := leadingName?_eq_some_iff hp himplicit
  have hlead' := leadingName?_eq_some_iff hq himplicit'
  by_cases hled : context.LedBy p
  · have hother : ¬ context.LedBy q := fun h => hne (hled.2.2.trans h.2.2.symm)
    have hfirst : [p.name, q.name].Sublist (orderedNames context) :=
      orderedNames_sublist_of_lead (hlead.mpr hled) (List.mem_map_of_mem hq) hne
    exact .inl ⟨hfirst, hother, .inl hled⟩
  · by_cases hled' : context.LedBy q
    · have hfirst : [q.name, p.name].Sublist (orderedNames context) :=
        orderedNames_sublist_of_lead (hlead'.mpr hled') (List.mem_map_of_mem hp) (Ne.symm hne)
      exact .inr ⟨hfirst, .inl hled'⟩
    · -- nobody of the two leads, and the order of the ledger is kept
      have hkeep := mt hlead.mp hled
      have hkeep' := mt hlead'.mp hled'
      obtain ⟨s', t', hs', ht', horder⟩ := implicit_in_ledger_order hp hq himplicit himplicit' hne
      cases hs.symm.trans hs'
      cases ht.symm.trans ht'
      rcases horder with ⟨hlt, hnames⟩ | ⟨hlt, hnames⟩
      · have hfirst := orderedNames_sublist hp hq himplicit.1 himplicit'.1 hkeep hkeep' hnames
        exact .inl ⟨hfirst, hled', .inr hlt⟩
      · have hfirst := orderedNames_sublist hq hp himplicit'.1 himplicit.1 hkeep' hkeep hnames
        exact .inr ⟨hfirst, .inr ⟨hled, hlt⟩⟩

end Lifelines

/-- **Implicit participants stand in the order in which they come first in the source.** Only the
    sentinel, if it was put in as a sender, stands before all others. -/
theorem implicit_in_order_of_appearance (source : String) (starter : Option String)
    (p q : Participant) (hp : p ∈ (collect (parse source) starter).ledger.entries)
    (hq : q ∈ (collect (parse source) starter).ledger.entries) (himplicit : p.Implicit)
    (himplicit' : q.Implicit) :
    let context := collect (parse source) starter
    ∃ s t i j, p.firstStart? = some s ∧ q.firstStart? = some t ∧
      indexOf? (orderParticipants context) p.name = some i ∧
      indexOf? (orderParticipants context) q.name = some j ∧
      (i < j ↔ ¬ context.LedBy q ∧ (context.LedBy p ∨ s < t)) := by
  intro context
  obtain ⟨s, i, hs, hi⟩ := exists_firstStart?_indexOf? hp himplicit
  by_cases hne : p.name = q.name
  · -- both are the same participant, and nobody stands before itself
    obtain rfl := Ledger.eq_of_name_eq hp hq hne
    refine ⟨s, s, i, i, hs, hs, hi, hi, iff_of_false (Nat.lt_irrefl i) ?_⟩
    rintro ⟨hnot, hled | hlt⟩
    · exact hnot hled
    · exact Nat.lt_irrefl s hlt
  · obtain ⟨t, j, ht, hj⟩ := exists_firstStart?_indexOf? hq himplicit'
    have hnodup := nodup_orderedNames context
    rw [← map_name_orderParticipants] at hnodup
    refine ⟨s, t, i, j, hs, ht, hi, hj, ?_⟩
    rcases implicit_in_lifeline_order hp hq himplicit himplicit' hne hs ht with
      ⟨hfirst, hright⟩ | ⟨hfirst, hwrong⟩
    · rw [← map_name_orderParticipants] at hfirst
      obtain ⟨i', j', hi', hj', hlt⟩ := exists_indexOf?_lt hfirst hnodup
      cases hi.symm.trans hi'
      cases hj.symm.trans hj'
      exact iff_of_true hlt hright
    · rw [← map_name_orderParticipants] at hfirst
      obtain ⟨j', i', hj', hi', hlt⟩ := exists_indexOf?_lt hfirst hnodup
      cases hi.symm.trans hi'
      cases hj.symm.trans hj'
      refine iff_of_false (Nat.lt_asymm hlt) ?_
      rintro ⟨hnot, hleft⟩
      rcases hwrong with hled | ⟨hno, hlater⟩
      · exact hnot hled
      · rcases hleft with hled | hearlier
        · exact hno hled
        · omega

/-- In a source without declarations the sender of the first message stands before its receiver. -/
theorem first_sender_stands_before_receiver :
    let source := "B->A.m"
    let sender := { Participant.named "B" with positions := [⟨0, 1, 1, 0⟩] }
    let receiver := { Participant.named "A" with positions := [⟨3, 4, 1, 3⟩] }
    let context := collect (parse source) none
    context.ledger.entries = [sender, receiver] ∧
      ∃ s t i j, sender.firstStart? = some s ∧ receiver.firstStart? = some t ∧
        indexOf? (orderParticipants context) sender.name = some i ∧
        indexOf? (orderParticipants context) receiver.name = some j ∧
        (i < j ↔ ¬ context.LedBy receiver ∧ (context.LedBy sender ∨ s < t)) := by
  intro source sender receiver context
  have hentries : context.ledger.entries = [sender, receiver] := by
    show (collect (parse "B->A.m") none).ledger.entries = _
    decide +kernel
  refine ⟨hentries, implicit_in_order_of_appearance source none sender receiver ?_ ?_ ⟨rfl, rfl⟩
    ⟨rfl, rfl⟩⟩
  · exact hentries ▸ List.mem_cons_self
  · exact hentries ▸ List.mem_cons_of_mem _ List.mem_cons_self

/-- The sentinel stands before a participant that comes earlier in the source. -/
theorem sentinel_stands_before_earlier_participant :
    let context := collect (parse "A.m\n_STARTER_->B.n") none
    ∃ p ∈ context.ledger.entries, ∃ q ∈ context.ledger.entries, p.Implicit ∧ q.Implicit ∧
      p.firstStart? = some 0 ∧ q.firstStart? = some 4 ∧
      indexOf? (orderParticipants context) p.name = some 1 ∧
      indexOf? (orderParticipants context) q.name = some 0 := by
  unfold Participant.Implicit
  decide +kernel

end SequenceDiagram
