import SequenceDiagram.Proofs.Document.Edits
import SequenceDiagram.Proofs.Participant.Appearance
import SequenceDiagram.Syntax.Program

namespace SequenceDiagram

open Syntax

/-!
# Names without text

A name can be written and still have no text: a pair of quotes with nothing in between. Whoever
reads a document takes such a token for one that is missing. Some of the places where participants
are collected do not.

* `Edit.omitEndpoints` drops these tokens where a name is used, `Edit.omitNames` where a participant
  is created as well, and `Program.withoutEmptyNames` everywhere.
* `Splits` says what is lost of some names when they are dropped: those that are kept have a text,
  and the others were `given` by a token without one.
* `Program.EmptyTokenGives` lists the places that take a token without text for a name:
  declarations, the starter and creations.
* `empty_names_are_collected` says that there are no others.
-/

/-! ### Tokens -/

namespace Token

/-- The token is there, but its text is empty. -/
def lacksText : Option Token → Bool
  | some t => t.text = ""
  | none => false

/-- The token, unless its text is empty. -/
def written (token : Option Token) : Option Token := token.filter (·.text ≠ "")

@[simp] theorem text?_written (token : Option Token) : text? (written token) = text? token := by
  cases token with
  | none => rfl
  | some t => by_cases h : t.text = "" <;> simp [written, text?, Option.filter, h]

@[simp] theorem written_written (token : Option Token) :
    written (written token) = written token := by
  simp only [written, Option.filter_filter, Bool.and_self]

end Token

/-! ### What becomes of names -/

/-- Of some names, those that are `kept` all have a text, and the others are `given` in another
    way. -/
structure Splits (names kept : List String) (given : String → Prop) : Prop where
  named : "" ∉ kept
  mem : ∀ name, name ∈ names ↔ name ∈ kept ∨ given name

namespace Splits

variable {names kept names' kept' : List String} {given given' : String → Prop}

/-- Names that all have a text are kept. -/
theorem of_named (h : "" ∉ names) : Splits names names fun _ => False :=
  ⟨h, fun _ => (or_false _).to_iff.symm⟩

theorem congr (h : Splits names kept given) (hgiven : ∀ name, given name ↔ given' name) :
    Splits names kept given' :=
  ⟨h.named, fun name => (h.mem name).trans (or_congr_right (hgiven name))⟩

theorem append (h : Splits names kept given) (h' : Splits names' kept' given') :
    Splits (names ++ names') (kept ++ kept') fun name => given name ∨ given' name where
  named := by
    rw [List.mem_append]
    exact not_or_intro h.named h'.named
  mem name := by
    rw [List.mem_append, List.mem_append, h.mem, h'.mem]
    exact or_or_or_comm

theorem flatMap {α : Type} {f g : α → List String} {given : α → String → Prop} {xs : List α}
    (h : ∀ x ∈ xs, Splits (f x) (g x) (given x)) :
    Splits (xs.flatMap f) (xs.flatMap g) fun name => ∃ x ∈ xs, given x name where
  named := by
    rw [List.mem_flatMap]
    rintro ⟨x, hx, hname⟩
    exact (h x hx).named hname
  mem name := by
    rw [List.mem_flatMap, List.mem_flatMap, ← exists_or]
    refine exists_congr fun x => ?_
    rw [← and_or_left]
    exact and_congr_right fun hx => (h x hx).mem name

/-- A name that is made of the text of a token is kept if the token has a text. -/
theorem token {f : String → String} (hf : ∀ text, text ≠ "" → f text ≠ "")
    (token : Option Token) : Splits (token.toList.map fun t => f t.text)
      ((Token.written token).toList.map fun t => f t.text)
      fun name => Token.lacksText token ∧ name = f "" := by
  cases token with
  | none => exact ⟨List.not_mem_nil, fun name => by simp [Token.written, Token.lacksText]⟩
  | some t =>
    by_cases h : t.text = ""
    · exact ⟨by simp [Token.written, Option.filter, h],
        fun name => by simp [Token.written, Token.lacksText, Option.filter, h]⟩
    · exact ⟨by simpa [Token.written, Option.filter, h] using (hf t.text h).symm,
        fun name => by simp [Token.written, Token.lacksText, Option.filter, h]⟩

end Splits

/-! ### Edits -/

namespace Edit

/-- Takes tokens without text for missing where a name is used. -/
def omitEndpoints : Edit where
  call c := { c with sender := Token.written c.sender, receiver := Token.written c.receiver }
  message m := { m with sender := Token.written m.sender, receiver := Token.written m.receiver }
  reference r := { r with names := r.names.take 1 ++ r.names.tail.filter (·.text ≠ "") }

/-- Takes tokens without text for missing where a name is used or a participant is created. -/
def omitNames : Edit :=
  { omitEndpoints with creation := fun c => { c with constructor := Token.written c.constructor } }

theorem used_written (token : Option Token) :
    Token.used (Token.written token) = Token.used token := by
  unfold Token.used
  rw [← Token.written, ← Token.written, Token.written_written]

/-- Of some names that are used, those without text are not mentioned. -/
theorem flatMap_used_filter (names : List Token) :
    (names.filter (·.text ≠ "")).flatMap (fun name => Token.used (some name)) =
      names.flatMap fun name => Token.used (some name) := by
  induction names with
  | nil => rfl
  | cons t rest ih =>
    by_cases h : t.text = ""
    · have hused : Token.used (some t) = [] := by simp [Token.used, h]
      rw [List.filter_cons_of_neg (by simp [h]), ih, List.flatMap_cons, hused, List.nil_append]
    · rw [List.filter_cons_of_pos (by simp [h]), List.flatMap_cons, ih, List.flatMap_cons]

/-- The participants that a reference covers are those behind its first name. -/
theorem tail_omitEndpoints (r : Reference) :
    (omitEndpoints.reference r).names.tail = r.names.tail.filter (·.text ≠ "") := by
  obtain ⟨names, span⟩ := r
  cases names <;> rfl

/-- **Where a name is used, a token without text is collected like a missing one.** -/
theorem omitEndpoints_unmentioned : omitEndpoints.Unmentioned where
  call c := by
    show Token.used (Token.written c.sender) ++ Token.used (Token.written c.receiver) = _
    rw [used_written, used_written]
    rfl
  message m := by
    show Token.used (Token.written m.sender) ++ Token.used (Token.written m.receiver) = _
    rw [used_written, used_written]
    rfl
  creation _ := rfl
  reference r := by
    unfold Reference.mentions
    rw [tail_omitEndpoints, flatMap_used_filter]

/-- **Where a name is used or a participant is created, a token without text is read like a missing
    one.** -/
theorem omitNames_unread : omitNames.Unread where
  call frame id c := by
    simp only [omitNames, omitEndpoints, Frame.call, callSignature, Token.text?_written]
  message frame id m := by
    simp only [omitNames, omitEndpoints, Frame.asyncMessage, Token.text?_written]
  creation frame id c := by
    simp only [omitNames, Frame.creation, Token.text?_written]
  ret frame id r := by
    obtain ⟨expression, message, span⟩ := r
    cases message with
    | none => rfl
    | some m =>
      simp only [Return.edit, omitNames, omitEndpoints, Frame.ret, Option.map_some,
        Option.bind_some, Token.text?_written]
  reference frame id r := by
    obtain ⟨names, span⟩ := r
    cases names with
    | nil => rfl
    | cons first others =>
      have hothers : ((others.filter (·.text ≠ "")).map (·.text)).filter (· ≠ "") =
          (others.map (·.text)).filter (· ≠ "") := by
        simp only [List.filter_map, List.filter_filter, Function.comp_def, Bool.and_self]
      exact congrArg (frame.fragment id .reference span [.mk "ref" (some first.text) []]) hothers
  guard _ := rfl
  salvage c := by
    cases c with
    | call c body =>
      simp only [Construct.edit, omitNames, omitEndpoints, Salvage.of, callSignature,
        Token.text?_written]
    | asyncMessage m =>
      simp only [Construct.edit, omitNames, omitEndpoints, Salvage.of, Token.text?_written]
    | creation | ret | divider | reference | block => rfl

end Edit

namespace Syntax

/-- The declaration, without its name if that has no text. -/
def Declaration.withoutEmptyName (d : Declaration) : Declaration :=
  { d with name := Token.written d.name }

/-- An entry of the head without the names that have no text. -/
def HeadItem.withoutEmptyNames : HeadItem → HeadItem
  | .participant d => .participant d.withoutEmptyName
  | .group g => .group { g with members := g.members.map (·.withoutEmptyName) }

/-- The head without the names that have no text. -/
def Head.withoutEmptyNames (h : Head) : Head :=
  ⟨h.items.map (·.withoutEmptyNames),
    h.starter.map fun s => { s with name := Token.written s.name }⟩

/-- The program, with every token without text missing where it would name a participant. -/
def Program.withoutEmptyNames (program : Program) : Program :=
  { program.edit .omitNames with head := program.head.map (·.withoutEmptyNames) }

/-! ### Tokens without text that are taken for names -/

/-- The declarations in an entry of the head. -/
def HeadItem.declarations : HeadItem → List Declaration
  | .participant d => [d]
  | .group g => g.members

/-- The declarations in a head. -/
def Head.declarations (h : Head) : List Declaration := h.items.flatMap (·.declarations)

mutual

/-- The creations in a statement. -/
def Statement.creations : Statement → List Creation
  | .unrecognized _ _ => []
  | .recognized c _ _ => c.creations

/-- The creations in a construct. -/
def Construct.creations : Construct → List Creation
  | .call _ body => body.creations
  | .asyncMessage _ => []
  | .creation c body => c :: body.creations
  | .ret _ => []
  | .divider _ => []
  | .reference _ => []
  | .block _ bs _ => creationsIn bs

/-- The creations in a block. -/
def Block.creations : Block → List Creation
  | .missing => []
  | .present ss _ => creationsOf ss

/-- The creations in some statements, at every depth. -/
def creationsOf : List Statement → List Creation
  | [] => []
  | s :: rest => s.creations ++ creationsOf rest

/-- The creations in some branches. -/
def creationsIn : List Branch → List Creation
  | [] => []
  | .mk _ _ body :: rest => body.creations ++ creationsIn rest

end

theorem Block.creations_eq (body : Block) : body.creations = creationsOf body.statements := by
  cases body <;> rfl

/-- The creation makes the name of a constructor without text. -/
def Creation.EmptyTokenGives (c : Creation) (name : String) : Prop :=
  Token.lacksText c.constructor ∧ name = creationName c.assignment ""

/-- The name is that of a participant which some token without text is taken for. -/
inductive Program.EmptyTokenGives (program : Program) (starter : Option String) : String → Prop
  | declaration {h d} : program.head = some h → d ∈ h.declarations → Token.lacksText d.name →
      EmptyTokenGives program starter ""
  | starter {h} : program.head = some h → effectiveOverride starter = none →
      Token.lacksText (h.starter.bind (·.name)) → EmptyTokenGives program starter ""
  | creation {c name} : c ∈ creationsOf program.statements → c.EmptyTokenGives name →
      EmptyTokenGives program starter name

/-! ### The names in a head -/

/-- The names that some mentions are of. -/
def mentioned (mentions : List (String × Mention)) : List String := mentions.map (·.1)

@[simp] theorem mentioned_append (first others : List (String × Mention)) :
    mentioned (first ++ others) = mentioned first ++ mentioned others := List.map_append

theorem mentioned_flatMap {α : Type} (f : α → List (String × Mention)) (xs : List α) :
    mentioned (xs.flatMap f) = xs.flatMap fun x => mentioned (f x) := List.map_flatMap ..

theorem splits_declaration (groupId : Option String) (d : Declaration) :
    Splits (mentioned (d.mentions groupId)) (mentioned (d.withoutEmptyName.mentions groupId))
      fun name => Token.lacksText d.name ∧ name = "" := by
  simpa [mentioned, Declaration.mentions, Declaration.withoutEmptyName, Function.comp_def] using
    Splits.token (f := id) (fun _ => id) d.name

theorem splits_headItem (item : HeadItem) :
    Splits (mentioned item.mentions) (mentioned item.withoutEmptyNames.mentions)
      fun name => ∃ d ∈ item.declarations, Token.lacksText d.name ∧ name = "" := by
  cases item with
  | participant d =>
    refine (splits_declaration none d).congr fun name => ?_
    simp [HeadItem.declarations]
  | group g =>
    simp only [HeadItem.mentions, HeadItem.withoutEmptyNames, mentioned_flatMap, List.flatMap_map]
    exact Splits.flatMap fun d _ => splits_declaration _ d

/-- The starter of a head, if it is to count. -/
theorem countedStarter_withoutEmptyNames (useStarter : Bool) (h : Head) :
    ((h.withoutEmptyNames.starter.bind (·.name)).filter fun _ => useStarter) =
      Token.written ((h.starter.bind (·.name)).filter fun _ => useStarter) := by
  have hname : h.withoutEmptyNames.starter.bind (·.name) =
      Token.written (h.starter.bind (·.name)) := by
    obtain ⟨items, starter⟩ := h
    cases starter <;> rfl
  rw [hname]
  cases useStarter <;> simp [Token.written, Option.filter_filter]

theorem lacksText_filter {token : Option Token} {counts : Bool} :
    Token.lacksText (token.filter fun _ => counts) ↔ counts = true ∧ Token.lacksText token := by
  cases token <;> cases counts <;> simp [Token.lacksText, Option.filter]

theorem splits_head (useStarter : Bool) (h : Head) :
    Splits (mentioned (h.mentions useStarter)) (mentioned (h.withoutEmptyNames.mentions useStarter))
      fun name => (∃ d ∈ h.declarations, Token.lacksText d.name ∧ name = "") ∨
        Token.lacksText ((h.starter.bind (·.name)).filter fun _ => useStarter) ∧ name = "" := by
  have hitems : Splits (mentioned (h.items.flatMap (·.mentions)))
      (mentioned (h.withoutEmptyNames.items.flatMap (·.mentions)))
      fun name => ∃ d ∈ h.declarations, Token.lacksText d.name ∧ name = "" := by
    simp only [Head.withoutEmptyNames, mentioned_flatMap, List.flatMap_map]
    refine (Splits.flatMap fun item _ => splits_headItem item).congr fun name => ?_
    simp only [Head.declarations, List.mem_flatMap]
    tauto
  have hstarter := Splits.token (f := id) (fun _ => id)
    ((h.starter.bind (·.name)).filter fun _ => useStarter)
  rw [← countedStarter_withoutEmptyNames] at hstarter
  simp only [Head.mentions, mentioned_append]
  exact hitems.append (by simpa [mentioned, Function.comp_def] using hstarter)

/-! ### The names in statements -/

theorem mentioned_used (token : Option Token) : "" ∉ mentioned (Token.used token) := by
  simp [mentioned, Token.used]

/-- Where a name is used, none is without text. -/
theorem mentioned_endpoints (sender receiver : Option Token) :
    "" ∉ mentioned (Token.used sender ++ Token.used receiver) := by
  rw [mentioned_append, List.mem_append]
  exact not_or_intro (mentioned_used sender) (mentioned_used receiver)

theorem mentioned_reference (r : Reference) : "" ∉ mentioned r.mentions := by
  unfold Reference.mentions
  rw [mentioned_flatMap, List.mem_flatMap]
  rintro ⟨t, _, hname⟩
  exact mentioned_used (some t) hname

/-- The name of a created participant has a text if that of its constructor has one. -/
theorem creationName_ne {assignment : Option Assignment} {constructor : String}
    (h : constructor ≠ "") : creationName assignment constructor ≠ "" := by
  unfold creationName
  split
  · intro hname
    simpa using congrArg String.length hname
  · exact h

/-- One of the creations makes the name of a constructor without text. -/
def SomeEmptyTokenGives (cs : List Creation) (name : String) : Prop :=
  ∃ c ∈ cs, c.EmptyTokenGives name

/-- Where nothing is created, all names are kept. -/
theorem splits_uncreated {names : List String} (h : "" ∉ names) :
    Splits names names (SomeEmptyTokenGives []) :=
  (Splits.of_named h).congr fun name => by simp [SomeEmptyTokenGives]

theorem splits_creations {names kept names' kept' : List String} {cs cs' : List Creation}
    (h : Splits names kept (SomeEmptyTokenGives cs))
    (h' : Splits names' kept' (SomeEmptyTokenGives cs')) :
    Splits (names ++ names') (kept ++ kept') (SomeEmptyTokenGives (cs ++ cs')) :=
  (h.append h').congr fun name => by
    simp only [SomeEmptyTokenGives, List.mem_append, or_and_right, exists_or]

theorem splits_creation (c : Creation) :
    Splits (mentioned c.mentions) (mentioned (Edit.omitNames.creation c).mentions)
      (SomeEmptyTokenGives [c]) := by
  have htoken := Splits.token (f := creationName c.assignment) (fun _ => creationName_ne)
    c.constructor
  have hgiven : ∀ name, (Token.lacksText c.constructor ∧ name = creationName c.assignment "") ↔
      SomeEmptyTokenGives [c] name := fun name => by
    simp [SomeEmptyTokenGives, Creation.EmptyTokenGives]
  simpa [mentioned, Creation.mentions, Edit.omitNames, Function.comp_def] using htoken.congr hgiven

theorem splits_call (c : Call) : Splits (mentioned c.mentions)
    (mentioned (Edit.omitNames.call c).mentions) (SomeEmptyTokenGives []) := by
  rw [show (Edit.omitNames.call c).mentions = c.mentions from
    Edit.omitEndpoints_unmentioned.call c]
  exact splits_uncreated (mentioned_endpoints c.sender c.receiver)

theorem splits_message (m : AsyncMessage) : Splits (mentioned m.mentions)
    (mentioned (Edit.omitNames.message m).mentions) (SomeEmptyTokenGives []) := by
  rw [show (Edit.omitNames.message m).mentions = m.mentions from
    Edit.omitEndpoints_unmentioned.message m]
  exact splits_uncreated (mentioned_endpoints m.sender m.receiver)

theorem splits_reference (r : Reference) : Splits (mentioned r.mentions)
    (mentioned (Edit.omitNames.reference r).mentions) (SomeEmptyTokenGives []) := by
  rw [show (Edit.omitNames.reference r).mentions = r.mentions from
    Edit.omitEndpoints_unmentioned.reference r]
  exact splits_uncreated (mentioned_reference r)

/-- **Among the names in statements, those without text are given by creations.** -/
theorem splitSteps : Syntax.Steps
    (fun s => Splits (mentioned s.mentions) (mentioned (s.edit .omitNames).mentions)
      (SomeEmptyTokenGives s.creations))
    (fun ss => Splits (mentioned (mentionsOf ss)) (mentioned (mentionsOf (editOf .omitNames ss)))
      (SomeEmptyTokenGives (creationsOf ss)))
    (fun bs => Splits (mentioned (mentionsIn bs)) (mentioned (mentionsIn (editIn .omitNames bs)))
      (SomeEmptyTokenGives (creationsIn bs))) where
  unrecognized span text := splits_uncreated List.not_mem_nil
  call c body span text hbody := by
    simp only [Statement.edit, Construct.edit, Statement.mentions, Construct.mentions,
      Statement.creations, Construct.creations, Block.mentions_eq, Block.creations_eq,
      Block.statements_edit, mentioned_append]
    exact splits_creations (splits_call c) hbody
  creation c body span text hbody := by
    simp only [Statement.edit, Construct.edit, Statement.mentions, Construct.mentions,
      Statement.creations, Construct.creations, Block.mentions_eq, Block.creations_eq,
      Block.statements_edit, mentioned_append]
    exact splits_creations (splits_creation c) hbody
  asyncMessage m span text := splits_message m
  ret r span text := by
    obtain ⟨expression, message, retSpan⟩ := r
    cases message with
    | none => exact splits_uncreated List.not_mem_nil
    | some m =>
      simp only [Statement.edit, Construct.edit, Return.edit, Statement.mentions,
        Construct.mentions, Option.map_some, Option.toList_some, List.flatMap_singleton]
      exact splits_message m
  divider d span text := splits_uncreated List.not_mem_nil
  reference r span text := splits_reference r
  block kind bs inner span text hbs := hbs
  nil := splits_uncreated List.not_mem_nil
  cons s rest hs hrest := by
    simp only [editOf, mentionsOf, creationsOf, mentioned_append]
    exact splits_creations hs hrest
  noBranch := splits_uncreated List.not_mem_nil
  branch role guard body rest hbody hrest := by
    simp only [editIn, mentionsIn, creationsIn, Block.mentions_eq, Block.creations_eq,
      Block.statements_edit, mentioned_append]
    exact splits_creations hbody hrest

/-! ### The names in a program -/

theorem Program.mentions_withoutEmptyNames (program : Program) (starter : Option String) :
    program.withoutEmptyNames.mentions starter =
      (program.head.map (·.withoutEmptyNames)).toList.flatMap
          (·.mentions (effectiveOverride starter).isNone) ++
        (effectiveOverride starter).toList.map (·, { isStarter := true }) ++
        mentionsOf (editOf .omitNames program.statements) := by
  rw [← Program.statements_edit]
  rfl

/-- **Among the names in a program, those without text are given by tokens without text.** -/
theorem splits_program (program : Program) (starter : Option String) :
    Splits (mentioned (program.mentions starter))
      (mentioned (program.withoutEmptyNames.mentions starter))
      (program.EmptyTokenGives starter) := by
  have hhead : Splits
      (mentioned (program.head.toList.flatMap (·.mentions (effectiveOverride starter).isNone)))
      (mentioned ((program.head.map (·.withoutEmptyNames)).toList.flatMap
        (·.mentions (effectiveOverride starter).isNone)))
      fun name => ∃ h ∈ program.head.toList,
        (∃ d ∈ h.declarations, Token.lacksText d.name ∧ name = "") ∨
        Token.lacksText ((h.starter.bind (·.name)).filter fun _ =>
          (effectiveOverride starter).isNone) ∧ name = "" := by
    rw [Option.toList_map, mentioned_flatMap, mentioned_flatMap, List.flatMap_map]
    exact Splits.flatMap fun h _ => splits_head _ h
  -- an empty starter from outside does not count
  have hstarter : "" ∉ mentioned ((effectiveOverride starter).toList.map
      (·, ({ isStarter := true } : Mention))) := by
    simp [mentioned, effectiveOverride]
  rw [Program.mentions_withoutEmptyNames]
  unfold Program.mentions
  simp only [mentioned_append]
  refine ((hhead.append (Splits.of_named hstarter)).append
    (splitSteps.statements program.statements)).congr fun name => ?_
  constructor
  · rintro ((⟨h, hh, ⟨d, hd, hlacks, rfl⟩ | ⟨hlacks, rfl⟩⟩ | hnone) | ⟨c, hc, hgives⟩)
    · exact .declaration (Option.mem_toList.mp hh) hd hlacks
    · obtain ⟨hoverride, hlacks⟩ := lacksText_filter.mp hlacks
      exact .starter (Option.mem_toList.mp hh) (Option.isNone_iff_eq_none.mp hoverride) hlacks
    · exact hnone.elim
    · exact .creation hc hgives
  · intro hgives
    cases hgives with
    | declaration hh hd hlacks =>
      exact .inl (.inl ⟨_, Option.mem_toList.mpr hh, .inl ⟨_, hd, hlacks, rfl⟩⟩)
    | starter hh hoverride hlacks =>
      have hcounted := lacksText_filter.mpr ⟨Option.isNone_iff_eq_none.mpr hoverride, hlacks⟩
      exact .inl (.inl ⟨_, Option.mem_toList.mpr hh, .inr ⟨hcounted, rfl⟩⟩)
    | creation hc hgives => exact .inr ⟨_, hc, hgives⟩

end Syntax

/-! ### Participants and documents -/

theorem mem_names_collect_iff {program : Program} {starter : Option String} {name : String} :
    name ∈ (collect program starter).ledger.names ↔
      name ∈ mentioned (program.mentions starter) := by
  rw [ledger_collect, Ledger.mem_names_addAll]
  exact or_iff_right List.not_mem_nil

/-- **Names without text.** Some participant has no name exactly if a declaration, the starter that
    counts or a creation takes a token without text for a name. In general the participants are
    those of the program in which such tokens are missing, and those that such places bring in.
    Where a name is only used, a token without text leaves the ledger as a missing one does, and in
    every frame the statements are read as if all these tokens were missing. -/
theorem empty_names_are_collected (program : Program) (starter : Option String) :
    ("" ∈ (collect program starter).ledger.names ↔ program.EmptyTokenGives starter "") ∧
    (∀ name, name ∈ (collect program starter).ledger.names ↔
      name ∈ (collect program.withoutEmptyNames starter).ledger.names ∨
        program.EmptyTokenGives starter name) ∧
    (collect (program.edit .omitEndpoints) starter).ledger = (collect program starter).ledger ∧
    ∀ (frame : Frame) next, frame.statements next program.withoutEmptyNames.statements =
      frame.statements next program.statements := by
  have hsplits := splits_program program starter
  refine ⟨?_, fun name => ?_, ledger_edit Edit.omitEndpoints_unmentioned program starter,
    fun frame next => ?_⟩
  · rw [mem_names_collect_iff, hsplits.mem]
    exact or_iff_right hsplits.named
  · rw [mem_names_collect_iff, mem_names_collect_iff]
    exact hsplits.mem name
  · show frame.statements next (program.edit .omitNames).statements = _
    rw [Program.statements_edit]
    exact Frame.statements_edit Edit.omitNames_unread frame next _

/-- A declaration, a member of a group, the starter and a creation bring in a participant without a
    name. A creation without constructor brings in a participant all the same if its result is
    assigned. The document has none of these creations. -/
theorem nameless_participants :
    (∀ source ∈ ["\"\"", "group \x7b \"\" \x7d", "@Starter(\"\")", "new \"\"()"],
      (collect (parse source) none).ledger.names = [""]) ∧
    (∀ source ∈ ["new \"\"()", "a = new \"\"()"],
      (interpret (parse source) none).document.messages = [] ∧
        (interpret (parse source) none).success = false) ∧
    (collect (parse "a = new \"\"()") none).ledger.names = ["a:"] := by
  decide +kernel

end SequenceDiagram
