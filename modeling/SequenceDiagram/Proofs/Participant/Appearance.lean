import SequenceDiagram.Proofs.Participant.History
import SequenceDiagram.Proofs.Participant.ReadingOrder

namespace SequenceDiagram

open Syntax

/-!
# Participants in order of appearance

A participant that is neither declared nor the starter is only mentioned in the statements, and
those are read in order.

* `Participant.Holds`: the record has what a mention says. `holds_of_mem` gives it for every record
  of a ledger and every mention of its name.
* `names_addAll_sublist`: of two names, the one that is mentioned first comes first.
* `firstStart?_eq_some`: the place where a participant comes first is that of its first mention.
* `Program.announced`: the mentions before the statements, among which no implicit participant is.
* `implicit_in_ledger_order`: of two implicit participants, the one that comes first in the source
  comes first in the ledger.
-/

/-! ### What records keep -/

/-- The record of the name has what the mention says. -/
structure Participant.Holds (p : Participant) (name : String) (m : Mention) : Prop where
  name : p.name = name
  explicit : m.explicit = true → p.explicit = true
  isStarter : m.isStarter = true → p.isStarter = true
  position : ∀ s, m.position = some s → s ∈ p.positions

namespace Ledger

/-- **A record holds every mention of its name.** -/
theorem holds_of_mem {mentions : List (String × Mention)} {p : Participant} {m : Mention}
    (hp : p ∈ (empty.addAll mentions).entries) (hm : (p.name, m) ∈ mentions) :
    p.Holds p.name m :=
  have hmade := madeOf_of_mem hp
  have hsaid := mem_said.mpr hm
  { name := rfl
    explicit := fun h => hmade.explicit.mpr ⟨m, hsaid, h⟩
    isStarter := fun h => hmade.isStarter.mpr ⟨m, hsaid, h⟩
    position := fun s h => (hmade.mem_positions s).mpr ⟨m, hsaid, h⟩ }

/-! ### The order of the names -/

theorem names_prefix_addAll (ledger : Ledger) (mentions : List (String × Mention)) :
    ledger.names <+: (ledger.addAll mentions).names := by
  induction mentions generalizing ledger with
  | nil => exact List.prefix_refl _
  | cons x rest ih =>
    have hadd : ledger.names <+: (ledger.add x.1 x.2).names := by
      rw [names_add]
      split
      · exact List.prefix_refl _
      · exact List.prefix_append _ _
    exact hadd.trans (ih _)

/-- The names are those that were there before and those that are mentioned. -/
theorem mem_names_addAll {ledger : Ledger} {mentions : List (String × Mention)} {name : String} :
    name ∈ (ledger.addAll mentions).names ↔
      name ∈ ledger.names ∨ name ∈ mentions.map (·.1) := by
  induction mentions generalizing ledger with
  | nil => simp [addAll]
  | cons x rest ih =>
    have hadd : name ∈ (ledger.add x.1 x.2).names ↔ name ∈ ledger.names ∨ name = x.1 := by
      rw [names_add]
      split
      · next hx =>
        constructor
        · exact .inl
        · rintro (h | rfl)
          · exact h
          · exact hx
      · simp
    show name ∈ ((ledger.add x.1 x.2).addAll rest).names ↔ _
    rw [ih, hadd, List.map_cons, List.mem_cons, or_assoc]

/-- **Of two names, the one that is mentioned first comes first.** -/
theorem names_addAll_sublist {ledger : Ledger} {first others : List (String × Mention)}
    {a b : String} (ha : a ∈ first.map (·.1)) (hb : b ∉ ledger.names ∧ b ∉ first.map (·.1))
    (hothers : b ∈ others.map (·.1)) : [a, b].Sublist (ledger.addAll (first ++ others)).names := by
  obtain ⟨behind, hbehind⟩ := names_prefix_addAll (ledger.addAll first) others
  have ha : a ∈ (ledger.addAll first).names := mem_names_addAll.mpr (.inr ha)
  have hall : b ∈ (ledger.addAll (first ++ others)).names := by
    rw [mem_names_addAll, List.map_append]
    exact .inr (List.mem_append_right _ hothers)
  rw [addAll_append, ← hbehind] at hall ⊢
  -- the first name is in what was there before, the second one is not
  have hlater : b ∈ behind := by
    refine (List.mem_append.mp hall).resolve_left fun hbefore => ?_
    rcases mem_names_addAll.mp hbefore with h | h
    · exact hb.1 h
    · exact hb.2 h
  exact (List.singleton_sublist.mpr ha).append (List.singleton_sublist.mpr hlater)

end Ledger

/-! ### Where a participant comes first -/

/-- Where the participant comes first in the source. -/
def Participant.firstStart? (p : Participant) : Option Nat := (p.positions.map (·.start)).min?

section Mentions

variable {ledger : Ledger} {others before after : List (String × Mention)}

/-- The mentions only say where a name is used, and each stands behind those before it. -/
structure UsedInOrder (mentions : List (String × Mention)) : Prop where
  used : ∀ x ∈ mentions, ∃ s, x.2 = .of s
  ordered : mentions.Pairwise fun x y =>
    ∀ s, x.2 = .of s → ∀ t, y.2 = .of t → s.start < t.start

/-- **A participant comes first at its first mention**, if it is only mentioned in order. -/
theorem firstStart?_eq_some {p : Participant} {s : Span}
    (hp : p ∈ (Ledger.empty.addAll (others ++ (before ++ (p.name, .of s) :: after))).entries)
    (hused : UsedInOrder (before ++ (p.name, .of s) :: after))
    (hothers : p.name ∉ others.map (·.1)) (hbefore : p.name ∉ before.map (·.1)) :
    p.firstStart? = some s.start := by
  have hmem : s ∈ p.positions :=
    (Ledger.holds_of_mem (m := .of s) hp (by simp)).position s rfl
  rw [Participant.firstStart?, List.min?_eq_some_iff]
  refine ⟨List.mem_map_of_mem hmem, ?_⟩
  intro start hstart
  obtain ⟨t, ht, rfl⟩ := List.mem_map.mp hstart
  obtain ⟨m, hm, hposition⟩ := (Ledger.mem_positions_addAll hp ht).resolve_right
    (by rintro ⟨q, hq, -⟩; cases hq)
  -- the mention is the first one, or it stands behind it
  have hlater : (p.name, m) ∈ (p.name, .of s) :: after := by
    have hname : ∀ mentions : List (String × Mention), (p.name, m) ∈ mentions →
        p.name ∈ mentions.map (·.1) := fun mentions h => List.mem_map_of_mem (f := (·.1)) h
    refine (List.mem_append.mp ((List.mem_append.mp hm).resolve_left ?_)).resolve_left ?_
    · exact fun h => hothers (hname _ h)
    · exact fun h => hbefore (hname _ h)
  rcases List.mem_cons.mp hlater with heq | hafter
  · cases heq
    cases hposition
    exact Nat.le_refl _
  · obtain ⟨u, hu⟩ := hused.used (p.name, m) (by simp [hafter])
    simp only at hu
    subst hu
    cases hposition
    have hordered := (List.pairwise_append.mp hused.ordered).2.1
    exact Nat.le_of_lt ((List.pairwise_cons.mp hordered).1 _ hafter s rfl t rfl)

/-- Of two participants that are mentioned one behind the other, the first comes first. -/
theorem mentioned_in_order {between : List (String × Mention)} {a b : String} {s t : Span}
    (hused : UsedInOrder (before ++ (a, .of s) :: (between ++ (b, .of t) :: after)))
    (hothers : b ∉ others.map (·.1))
    (hfirst : b ∉ (before ++ (a, .of s) :: between).map (·.1)) :
    s.start < t.start ∧ [a, b].Sublist (Ledger.empty.addAll
      (others ++ (before ++ (a, .of s) :: (between ++ (b, .of t) :: after)))).names := by
  constructor
  · have hordered := (List.pairwise_append.mp hused.ordered).2.1
    exact (List.pairwise_cons.mp hordered).1 (b, .of t) (by simp) s rfl t rfl
  · have hsplit : others ++ (before ++ (a, Mention.of s) :: (between ++ (b, .of t) :: after)) =
        (others ++ (before ++ (a, .of s) :: between)) ++ (b, .of t) :: after := by simp
    rw [hsplit]
    refine Ledger.names_addAll_sublist (by simp) ⟨List.not_mem_nil, ?_⟩ (by simp)
    rw [List.map_append, List.mem_append, not_or]
    exact ⟨hothers, hfirst⟩

end Mentions

/-! ### Implicit participants of a program -/

/-- The participant was not declared, and it is not the starter. -/
def Participant.Implicit (p : Participant) : Prop := p.explicit = false ∧ p.isStarter = false

/-- A name in the statements is only used. -/
theorem Syntax.used_of_mem {token : Option Token} :
    ∀ x ∈ Token.used token, ∃ s, x.2 = .of s := by
  intro x hx
  obtain ⟨t, -, rfl⟩ := List.mem_map.mp hx
  exact ⟨t.span, rfl⟩

theorem Syntax.usedSteps : Syntax.Steps
    (fun s => ∀ x ∈ s.mentions, ∃ t, x.2 = .of t)
    (fun ss => ∀ x ∈ mentionsOf ss, ∃ t, x.2 = .of t)
    (fun bs => ∀ x ∈ mentionsIn bs, ∃ t, x.2 = .of t) where
  unrecognized span text x hx := nomatch hx
  call c body span text hbody := by
    simp only [Statement.mentions, Construct.mentions, Call.mentions, Block.mentions_eq,
      List.forall_mem_append]
    exact ⟨⟨used_of_mem, used_of_mem⟩, hbody⟩
  creation c body span text hbody := by
    simp only [Statement.mentions, Construct.mentions, Block.mentions_eq, List.forall_mem_append]
    refine ⟨?_, hbody⟩
    intro x hx
    obtain ⟨t, -, rfl⟩ := List.mem_map.mp hx
    exact ⟨t.span, rfl⟩
  asyncMessage m span text := List.forall_mem_append.mpr ⟨used_of_mem, used_of_mem⟩
  ret r span text x hx := by
    obtain ⟨m, -, hm⟩ := List.mem_flatMap.mp hx
    exact (List.forall_mem_append.mpr ⟨used_of_mem, used_of_mem⟩) x hm
  divider d span text x hx := nomatch hx
  reference r span text x hx := by
    obtain ⟨name, -, hname⟩ := List.mem_flatMap.mp hx
    exact used_of_mem x hname
  block kind bs inner span text hbs := hbs
  nil x hx := nomatch hx
  cons s rest hs hrest := List.forall_mem_append.mpr ⟨hs, hrest⟩
  noBranch x hx := nomatch hx
  branch role guard body rest hbody hrest := by
    simp only [mentionsIn, Block.mentions_eq, List.forall_mem_append]
    exact ⟨hbody, hrest⟩

/-- The mentions in the statements of a source are in order. -/
theorem usedInOrder_parse (source : String) :
    UsedInOrder (mentionsOf (parse source).statements) where
  used := Syntax.usedSteps.statements _
  ordered := by
    refine (List.pairwise_filterMap.mp (mentions_pairwise source)).imp ?_
    rintro x y h s hs t ht
    exact h s (by rw [hs]; rfl) t (by rw [ht]; rfl)

namespace Syntax

/-- Who a declaration mentions is declared. -/
theorem Declaration.explicit_of_mem {groupId : Option String} {d : Declaration} :
    ∀ x ∈ d.mentions groupId, x.2.explicit = true := by
  intro x hx
  obtain ⟨t, -, rfl⟩ := List.mem_map.mp hx
  rfl

theorem HeadItem.explicit_of_mem {item : HeadItem} : ∀ x ∈ item.mentions, x.2.explicit = true := by
  cases item with
  | participant d => exact Declaration.explicit_of_mem
  | group g =>
    intro x hx
    obtain ⟨d, -, hx⟩ := List.mem_flatMap.mp hx
    exact Declaration.explicit_of_mem x hx

/-- The mentions before the statements. -/
def Program.announced (program : Program) (starter : Option String) : List (String × Mention) :=
  program.head.toList.flatMap (·.mentions (effectiveOverride starter).isNone) ++
    (effectiveOverride starter).toList.map (·, { isStarter := true })

theorem Program.mentions_eq (program : Program) (starter : Option String) :
    program.mentions starter = program.announced starter ++ mentionsOf program.statements := rfl

/-- What comes before the statements declares, or names the starter. -/
theorem Program.marked_of_mem_announced {program : Program} {starter : Option String} :
    ∀ x ∈ program.announced starter, x.2.explicit = true ∨ x.2.isStarter = true := by
  intro x hx
  rcases List.mem_append.mp hx with hx | hx
  · obtain ⟨h, -, hx⟩ := List.mem_flatMap.mp hx
    rcases List.mem_append.mp hx with hx | hx
    · obtain ⟨item, -, hx⟩ := List.mem_flatMap.mp hx
      exact .inl (HeadItem.explicit_of_mem x hx)
    · obtain ⟨t, -, rfl⟩ := List.mem_map.mp hx
      exact .inr rfl
  · obtain ⟨name, -, rfl⟩ := List.mem_map.mp hx
    exact .inr rfl

/-- The starter of a program is named before the statements. -/
theorem Program.mem_announced_of_starter {program : Program} {starter : Option String}
    {name : String} (h : (collect program starter).starter = some name) :
    name ∈ (program.announced starter).map (·.1) := by
  rw [starter_collect, declaredStarter?] at h
  unfold announced
  cases hoverride : effectiveOverride starter with
  | some override =>
    rw [hoverride] at h
    cases h
    simp
  | none =>
    rw [hoverride, Option.none_or] at h
    obtain ⟨t, ht, rfl⟩ := Option.map_eq_some_iff.mp h
    obtain ⟨declared, hdeclared, hname⟩ := Option.bind_eq_some_iff.mp ht
    obtain ⟨head, hhead, hstarter⟩ := Option.bind_eq_some_iff.mp hdeclared
    simp [hhead, Head.mentions, hstarter, hname]

end Syntax

/-- An implicit participant is not mentioned before the statements. -/
theorem Participant.Implicit.not_announced {program : Program} {starter : Option String}
    {p : Participant} (himplicit : p.Implicit)
    (hp : p ∈ (collect program starter).ledger.entries) :
    p.name ∉ (program.announced starter).map (·.1) := by
  intro h
  obtain ⟨⟨name, m⟩, hx, rfl⟩ := List.mem_map.mp h
  rw [ledger_collect, Program.mentions_eq] at hp
  have hholds := Ledger.holds_of_mem hp (List.mem_append_left _ hx)
  rcases Program.marked_of_mem_announced _ hx with hm | hm
  · simpa [himplicit.1] using hholds.explicit hm
  · simpa [himplicit.2] using hholds.isStarter hm

section Programs

variable {source : String} {starter : Option String} {p q : Participant}

/-- An implicit participant comes first at its first mention in the statements. -/
theorem exists_first_mention (hp : p ∈ (collect (parse source) starter).ledger.entries)
    (himplicit : p.Implicit) : ∃ before s after,
      mentionsOf (parse source).statements = before ++ (p.name, .of s) :: after ∧
      p.name ∉ before.map (·.1) ∧ p.firstStart? = some s.start := by
  have hused := usedInOrder_parse source
  have hnot := himplicit.not_announced hp
  rw [ledger_collect, Program.mentions_eq] at hp
  have hname : p.name ∈ (mentionsOf (parse source).statements).map (·.1) := by
    have hnames : p.name ∈ (Ledger.empty.addAll ((parse source).announced starter ++
        mentionsOf (parse source).statements)).names := List.mem_map_of_mem hp
    rw [Ledger.mem_names_addAll, List.map_append, List.mem_append] at hnames
    exact (hnames.resolve_left List.not_mem_nil).resolve_left hnot
  -- the first of its mentions
  obtain ⟨names, others, hsplit, hfirst⟩ := List.eq_append_cons_of_mem hname
  obtain ⟨before, rest, hall, hbefore, hrest⟩ := List.map_eq_append_iff.mp hsplit
  obtain ⟨⟨name, m⟩, after, rfl, hx, -⟩ := List.map_eq_cons_iff.mp hrest
  subst hx
  rw [hall] at hused hp ⊢
  obtain ⟨s, hs⟩ := hused.used (p.name, m) (by simp)
  simp only at hs
  subst hs hbefore
  exact ⟨before, s, after, rfl, hfirst, firstStart?_eq_some hp hused hnot hfirst⟩

/-- **Of two implicit participants, the one that comes first in the source comes first in the
    ledger.** -/
theorem implicit_in_ledger_order (hp : p ∈ (collect (parse source) starter).ledger.entries)
    (hq : q ∈ (collect (parse source) starter).ledger.entries) (himplicit : p.Implicit)
    (himplicit' : q.Implicit) (hne : p.name ≠ q.name) :
    ∃ s t, p.firstStart? = some s ∧ q.firstStart? = some t ∧
      (s < t ∧ [p.name, q.name].Sublist (collect (parse source) starter).ledger.names ∨
        t < s ∧ [q.name, p.name].Sublist (collect (parse source) starter).ledger.names) := by
  have hp' := himplicit.not_announced hp
  have hq' := himplicit'.not_announced hq
  obtain ⟨before, s, after, hsplit, hfirst, hs⟩ := exists_first_mention hp himplicit
  obtain ⟨before', t, after', hsplit', hfirst', ht⟩ := exists_first_mention hq himplicit'
  refine ⟨s.start, t.start, hs, ht, ?_⟩
  have hused := usedInOrder_parse source
  rw [ledger_collect, Program.mentions_eq]
  -- the first mention of one of them stands among those before that of the other
  rw [hsplit] at hsplit'
  rcases List.append_eq_append_iff.mp hsplit' with ⟨between, rfl, hrest⟩ | ⟨between, rfl, hrest⟩
  · cases between with
    | nil =>
      simp only [List.nil_append, List.cons.injEq, Prod.mk.injEq] at hrest
      exact absurd hrest.1.1 hne
    | cons x between =>
      rw [List.cons_append, List.cons.injEq] at hrest
      obtain ⟨rfl, rfl⟩ := hrest
      rw [hsplit] at hused ⊢
      exact .inl (mentioned_in_order hused hq' hfirst')
  · cases between with
    | nil =>
      simp only [List.nil_append, List.cons.injEq, Prod.mk.injEq] at hrest
      exact absurd hrest.1.1.symm hne
    | cons x between =>
      rw [List.cons_append, List.cons.injEq] at hrest
      obtain ⟨rfl, rfl⟩ := hrest
      rw [hsplit, List.append_assoc] at hused ⊢
      exact .inr (mentioned_in_order hused hp' hfirst)

end Programs

end SequenceDiagram
