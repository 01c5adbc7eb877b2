import Mathlib.Data.List.MinMax
import Mathlib.Order.Lattice.Nat
import SequenceDiagram.Proofs.Layout.Sessions

namespace SequenceDiagram

/-!
# Clients of one session

Any number of clients share a session. The update of a client has three steps: it takes a version,
computes a layout for it and publishes the layout. Each step is atomic, and anything can happen
between two of them. Besides, layouts of freely chosen versions are offered, and readers look at
what is visible.

* `SharedSession.Step` is one step and `SharedSession.Run` are all steps so far, with the events
  that the clients observe.
* `Run.versions_eq`, `Run.visibleVersion_eq` and `Run.seen_pairwise`: which versions were taken,
  which one is visible, and what the readers saw.
* `Run.updates`: every version that was taken is still on its way or was published.
* `visible_layout_never_goes_back` puts them together.
-/

/-! ### The visible version -/

namespace Session

/-- The version that is visible; `⊥` before the first layout. -/
def visibleVersion (s : Session) : WithBot Nat := s.current.elim ⊥ fun l => WithBot.some l.version

theorem visibleVersion_of_current {s : Session} {visible : DiagramLayout}
    (h : s.current = some visible) : s.visibleVersion = WithBot.some visible.version := by
  rw [visibleVersion, h]
  rfl

/-- A layout is turned away exactly if a newer one is visible. -/
theorem publish_fst_eq_false_iff (s : Session) (layout : DiagramLayout) :
    (s.publish layout).1 = false ↔
      ∃ visible, s.current = some visible ∧ layout.version < visible.version := by
  unfold publish
  split
  · next h =>
    obtain ⟨visible, hvisible, hlt⟩ := (Option.any_eq_true _ _).mp h
    exact iff_of_true rfl ⟨visible, hvisible, of_decide_eq_true hlt⟩
  · next h =>
    refine iff_of_false Bool.noConfusion ?_
    rintro ⟨visible, hvisible, hlt⟩
    exact h ((Option.any_eq_true _ _).mpr ⟨visible, hvisible, decide_eq_true hlt⟩)

/-- What is visible after a layout was published, or turned away. -/
theorem current_publish (s : Session) (layout : DiagramLayout) :
    (s.publish layout).2.current =
      if (s.publish layout).1 then some layout else s.current := by
  unfold publish
  split <;> rfl

/-- The visible version after a layout was published is the newer one of both. -/
theorem visibleVersion_publish (s : Session) (layout : DiagramLayout) :
    (s.publish layout).2.visibleVersion = max s.visibleVersion (WithBot.some layout.version) := by
  cases hshown : (s.publish layout).1 with
  | false =>
    obtain ⟨visible, hvisible, hlt⟩ := (publish_fst_eq_false_iff s layout).mp hshown
    have hcurrent := current_publish s layout
    rw [hshown, hvisible] at hcurrent
    rw [visibleVersion_of_current hcurrent, visibleVersion_of_current hvisible]
    exact (max_eq_left (WithBot.coe_le_coe.mpr hlt.le)).symm
  | true =>
    have hcurrent := current_publish s layout
    rw [hshown, if_pos rfl] at hcurrent
    rw [visibleVersion_of_current hcurrent]
    refine (max_eq_right ?_).symm
    -- nothing that is visible is newer, else the layout would have been turned away
    cases hvisible : s.current with
    | none => rw [visibleVersion, hvisible]; exact bot_le
    | some visible =>
      rw [visibleVersion_of_current hvisible]
      refine WithBot.coe_le_coe.mpr (Nat.le_of_not_lt fun hlt => ?_)
      have hfalse := (publish_fst_eq_false_iff s layout).mpr ⟨visible, hvisible, hlt⟩
      rw [hshown] at hfalse
      cases hfalse

@[simp] theorem latestVersion_publish (s : Session) (layout : DiagramLayout) :
    (s.publish layout).2.latestVersion = s.latestVersion := by
  unfold publish
  split <;> rfl

end Session

/-! ### Steps of the clients -/

/-- How far the update of a client has come. -/
inductive Progress where
  | idle
  | registered (version : Nat)
  | computed (layout : DiagramLayout)

/-- The version of an update that has not published yet. -/
def Progress.version? : Progress → Option Nat
  | idle => none
  | registered version => some version
  | computed layout => some layout.version

/-- What a client observes of a step. -/
inductive Event (Client : Type) where
  | registers (client : Client) (version : Nat)
  | computes (client : Client) (source : String) (starter : Option String) (layout : DiagramLayout)
  | publishes (client : Client) (layout : DiagramLayout) (shown : Bool)
  | offers (layout : DiagramLayout) (shown : Bool)
  | sees (layout : Option DiagramLayout)

namespace Event

variable {Client : Type}

/-- The version that was taken. -/
def version? : Event Client → Option Nat
  | registers _ version => some version
  | _ => none

/-- The layout that was passed to the session, and whether it became visible. -/
def publication? : Event Client → Option (DiagramLayout × Bool)
  | publishes _ layout shown => some (layout, shown)
  | offers layout shown => some (layout, shown)
  | _ => none

/-- The version that a reader saw. -/
def seen? : Event Client → Option (WithBot Nat)
  | sees layout => some (layout.elim ⊥ fun l => WithBot.some l.version)
  | _ => none

end Event

/-- A session and how far the updates of its clients have come. -/
structure SharedSession (Client : Type) where
  session : Session
  progress : Client → Progress

namespace SharedSession

variable {Client : Type} [DecidableEq Client]

/-- Before the first edit. -/
def start (Client : Type) (config : LayoutConfig) (measure : TextMeasure) : SharedSession Client :=
  ⟨.start config measure, fun _ => .idle⟩

/-- A client has come to a point, and left the session like this. -/
def advance (t : SharedSession Client) (client : Client) (progress : Progress) (session : Session) :
    SharedSession Client :=
  ⟨session, fun c => if c = client then progress else t.progress c⟩

/-- One atomic step. -/
inductive Step : SharedSession Client → Event Client → SharedSession Client → Prop where
  | register {t : SharedSession Client} {client : Client} (h : t.progress client = .idle) :
    Step t (.registers client t.session.nextVersion.1)
      (t.advance client (.registered t.session.nextVersion.1) t.session.nextVersion.2)
  | compute {t : SharedSession Client} {client : Client} {version : Nat} (source : String)
      (starter : Option String) (h : t.progress client = .registered version) :
    Step t (.computes client source starter (t.session.compute source version starter).1)
      (t.advance client (.computed (t.session.compute source version starter).1)
        (t.session.compute source version starter).2)
  | publish {t : SharedSession Client} {client : Client} {layout : DiagramLayout}
      (h : t.progress client = .computed layout) :
    Step t (.publishes client layout (t.session.publish layout).1)
      (t.advance client .idle (t.session.publish layout).2)
  | offer {t : SharedSession Client} (layout : DiagramLayout) :
    Step t (.offers layout (t.session.publish layout).1)
      { t with session := (t.session.publish layout).2 }
  | read {t : SharedSession Client} : Step t (.sees t.session.current) t

/-- All steps since the start, with the events in their order. -/
inductive Run (config : LayoutConfig) (measure : TextMeasure) :
    List (Event Client) → SharedSession Client → Prop where
  | start : Run config measure [] (.start Client config measure)
  | step {trace : List (Event Client)} {t t' : SharedSession Client} {event : Event Client}
      (h : Run config measure trace t) (hstep : Step t event t') :
      Run config measure (trace ++ [event]) t'

/-! ### What one step does -/

namespace Step

variable {config : LayoutConfig} {measure : TextMeasure} {t t' : SharedSession Client}
  {event : Event Client}

theorem keeps (h : Step t event t') (hkeeps : t.session.Keeps config measure) :
    t'.session.Keeps config measure := by
  cases h with
  | register => exact hkeeps.nextVersion
  | compute source starter => exact (hkeeps.compute source _ starter).2
  | publish => exact hkeeps.publish _
  | offer layout => exact hkeeps.publish layout
  | read => exact hkeeps

/-- A version that is taken is the next one, and no other step changes the latest. -/
theorem latestVersion_eq (h : Step t event t') :
    List.range' 1 t'.session.latestVersion =
      List.range' 1 t.session.latestVersion ++ event.version?.toList := by
  cases h with
  | register =>
    show List.range' 1 (t.session.latestVersion + 1) =
      List.range' 1 t.session.latestVersion ++ [t.session.latestVersion + 1]
    rw [List.range'_concat, Nat.one_mul, Nat.add_comm 1]
  | compute source starter => exact (List.append_nil _).symm
  | publish =>
    simp only [advance, Session.latestVersion_publish]
    exact (List.append_nil _).symm
  | offer layout =>
    simp only [Session.latestVersion_publish]
    exact (List.append_nil _).symm
  | read => exact (List.append_nil _).symm

/-- The session turns a layout away exactly if a newer one is visible, and then nothing changes for
    the readers. -/
theorem publication (h : Step t event t') {layout : DiagramLayout} {shown : Bool}
    (hevent : event.publication? = some (layout, shown)) :
    shown = (t.session.publish layout).1 ∧
      t'.session.current = (t.session.publish layout).2.current := by
  cases h with
  | register => cases hevent
  | compute source starter => cases hevent
  | publish => cases hevent; exact ⟨rfl, rfl⟩
  | offer layout => cases hevent; exact ⟨rfl, rfl⟩
  | read => cases hevent

/-- Only a publication changes what is visible. -/
theorem current_eq (h : Step t event t') (hevent : event.publication? = none) :
    t'.session.current = t.session.current := by
  cases h with
  | register => rfl
  | compute source starter => rfl
  | publish => cases hevent
  | offer layout => cases hevent
  | read => rfl

theorem visibleVersion_eq (h : Step t event t') :
    t'.session.visibleVersion =
      max t.session.visibleVersion (event.publication?.toList.map (·.1.version)).maximum := by
  cases hevent : event.publication? with
  | none =>
    rw [Session.visibleVersion, h.current_eq hevent]
    exact (max_eq_left bot_le).symm
  | some publication =>
    obtain ⟨layout, shown⟩ := publication
    rw [Session.visibleVersion, (h.publication hevent).2]
    exact t.session.visibleVersion_publish layout

/-- A reader sees what is visible. -/
theorem seen_eq (h : Step t event t') :
    ∀ v ∈ event.seen?, v = t.session.visibleVersion ∧ t'.session.visibleVersion = v := by
  cases h with
  | read =>
    rintro v ⟨⟩
    exact ⟨rfl, rfl⟩
  | _ => exact fun v hv => nomatch hv

end Step

/-! ### What all steps do -/

namespace Run

variable {config : LayoutConfig} {measure : TextMeasure} {trace : List (Event Client)}
  {t : SharedSession Client}

theorem keeps (h : Run config measure trace t) : t.session.Keeps config measure := by
  induction h with
  | start => exact Session.keeps_start config measure
  | step _ hstep ih => exact hstep.keeps ih

/-- The versions are taken in their order, each once. -/
theorem versions_eq (h : Run config measure trace t) :
    trace.filterMap Event.version? = List.range' 1 t.session.latestVersion := by
  induction h with
  | start => rfl
  | @step trace t t' event _ hstep ih =>
    rw [hstep.latestVersion_eq, List.filterMap_append, ih]
    cases hevent : event.version? <;> simp [hevent]

/-- The newest version that was published is visible. -/
theorem visibleVersion_eq (h : Run config measure trace t) :
    t.session.visibleVersion =
      ((trace.filterMap Event.publication?).map (·.1.version)).maximum := by
  induction h with
  | start => rfl
  | @step trace t t' event _ hstep ih =>
    rw [hstep.visibleVersion_eq, ih, List.filterMap_append, List.map_append, List.maximum_append]
    cases hevent : event.publication? <;> simp [hevent]

/-- The versions that the readers saw never decrease, and what is visible now is not older. -/
theorem seen_pairwise (h : Run config measure trace t) :
    (trace.filterMap Event.seen? ++ [t.session.visibleVersion]).Pairwise (· ≤ ·) := by
  induction h with
  | start => exact List.pairwise_singleton _ _
  | @step trace t t' event _ hstep ih =>
    have hle : t.session.visibleVersion ≤ t'.session.visibleVersion := by
      rw [hstep.visibleVersion_eq]
      exact le_max_left _ _
    obtain ⟨hseen, -, hlast⟩ := List.pairwise_append.mp ih
    have hbefore : ∀ v ∈ trace.filterMap Event.seen?, v ≤ t.session.visibleVersion :=
      fun v hv => hlast v hv _ (List.mem_singleton_self _)
    cases hevent : event.seen? with
    | none =>
      simp only [List.filterMap_append, List.filterMap_cons, hevent, List.filterMap_nil,
        List.append_nil]
      refine List.pairwise_append.mpr ⟨hseen, List.pairwise_singleton _ _, fun v hv w hw => ?_⟩
      rw [List.mem_singleton.mp hw]
      exact (hbefore v hv).trans hle
    | some seen =>
      obtain ⟨hbeforeStep, hafterStep⟩ := hstep.seen_eq seen hevent
      simp only [List.filterMap_append, List.filterMap_cons, hevent, List.filterMap_nil]
      rw [hafterStep, hbeforeStep, List.append_assoc]
      refine List.pairwise_append.mpr ⟨hseen, by simp, fun v hv w hw => ?_⟩
      simp only [List.singleton_append, List.mem_cons, List.not_mem_nil, or_false, or_self] at hw
      rw [hw]
      exact hbefore v hv

/-- What is visible was published. -/
theorem current_mem (h : Run config measure trace t) {visible : DiagramLayout}
    (hvisible : t.session.current = some visible) :
    ∃ event ∈ trace, ∃ shown, event.publication? = some (visible, shown) := by
  induction h with
  | start => cases hvisible
  | @step trace t t' event _ hstep ih =>
    have hold : t.session.current = some visible →
        ∃ e ∈ trace ++ [event], ∃ shown, e.publication? = some (visible, shown) := fun hcurrent => by
      obtain ⟨e, he, hpublication⟩ := ih hcurrent
      exact ⟨e, List.mem_append_left _ he, hpublication⟩
    cases hevent : event.publication? with
    | none => exact hold ((hstep.current_eq hevent).symm.trans hvisible)
    | some publication =>
      obtain ⟨layout, shown⟩ := publication
      rw [(hstep.publication hevent).2, Session.current_publish] at hvisible
      split at hvisible
      · cases hvisible
        exact ⟨event, by simp, shown, hevent⟩
      · exact hold hvisible

end Run

/-! ### What becomes of an update -/

@[simp] theorem progress_advance_self (t : SharedSession Client) (client : Client)
    (progress : Progress) (session : Session) :
    (t.advance client progress session).progress client = progress := if_pos rfl

theorem progress_advance_of_ne (t : SharedSession Client) {client c : Client} (progress : Progress)
    (session : Session) (h : c ≠ client) :
    (t.advance client progress session).progress c = t.progress c := if_neg h

/-- The client computed the layout for a version that was taken, and it is the layout of its
    source. -/
structure ComputedBy (config : LayoutConfig) (measure : TextMeasure) (trace : List (Event Client))
    (t : SharedSession Client) (client : Client) (layout : DiagramLayout) : Prop where
  le_latest : layout.version ≤ t.session.latestVersion
  computes : ∃ source starter, .computes client source starter layout ∈ trace ∧
    layout = computeLayout measure config source layout.version starter

/-- No update is lost, and none publishes anything else than what it has computed. -/
structure Updates (config : LayoutConfig) (measure : TextMeasure) (trace : List (Event Client))
    (t : SharedSession Client) : Prop where
  accounted : ∀ v, 1 ≤ v → v ≤ t.session.latestVersion →
    (∃ client, (t.progress client).version? = some v) ∨
      ∃ client layout shown, .publishes client layout shown ∈ trace ∧ layout.version = v
  registered : ∀ client v, t.progress client = .registered v → v ≤ t.session.latestVersion
  computed : ∀ client layout, t.progress client = .computed layout →
    ComputedBy config measure trace t client layout
  published : ∀ client layout shown, .publishes client layout shown ∈ trace →
    ComputedBy config measure trace t client layout

section Updates

variable {config : LayoutConfig} {measure : TextMeasure} {trace : List (Event Client)}
  {t t' : SharedSession Client} {event : Event Client}

theorem Step.latestVersion_le (h : Step t event t') :
    t.session.latestVersion ≤ t'.session.latestVersion := by
  cases h with
  | register => exact Nat.le_succ _
  | compute source starter => exact Nat.le_refl _
  | publish => exact (Session.latestVersion_publish _ _).ge
  | offer layout => exact (Session.latestVersion_publish _ _).ge
  | read => exact Nat.le_refl _

theorem ComputedBy.step {client : Client} {layout : DiagramLayout}
    (h : ComputedBy config measure trace t client layout) (hstep : Step t event t') :
    ComputedBy config measure (trace ++ [event]) t' client layout where
  le_latest := h.le_latest.trans hstep.latestVersion_le
  computes := by
    obtain ⟨source, starter, hmem, hlayout⟩ := h.computes
    exact ⟨source, starter, List.mem_append_left _ hmem, hlayout⟩

/-- What a step does to the update of one client. -/
inductive Advances (t : SharedSession Client) (event : Event Client) (t' : SharedSession Client)
    (c : Client) : Prop where
  | stays (after : t'.progress c = t.progress c)
  | registers (before : t.progress c = .idle)
    (after : t'.progress c = .registered t'.session.latestVersion)
  | computes {version : Nat} (source : String) (starter : Option String)
    (before : t.progress c = .registered version)
    (observed : event = .computes c source starter (t.session.compute source version starter).1)
    (after : t'.progress c = .computed (t.session.compute source version starter).1)
  | publishes {layout : DiagramLayout} (shown : Bool) (before : t.progress c = .computed layout)
    (observed : event = .publishes c layout shown) (after : t'.progress c = .idle)

theorem Step.advances (h : Step t event t') (c : Client) : Advances t event t' c := by
  cases h with
  | @register client hidle =>
    by_cases hc : c = client
    · subst hc
      exact .registers hidle (progress_advance_self _ _ _ _)
    · exact .stays (progress_advance_of_ne _ _ _ hc)
  | @compute client version source starter hregistered =>
    by_cases hc : c = client
    · subst hc
      exact .computes source starter hregistered rfl (progress_advance_self _ _ _ _)
    · exact .stays (progress_advance_of_ne _ _ _ hc)
  | @publish client layout hcomputed =>
    by_cases hc : c = client
    · subst hc
      exact .publishes _ hcomputed rfl (progress_advance_self _ _ _ _)
    · exact .stays (progress_advance_of_ne _ _ _ hc)
  | offer layout => exact .stays rfl
  | read => exact .stays rfl

/-- A version that is new belongs to a client. -/
theorem Step.latestVersion_new (h : Step t event t') :
    t'.session.latestVersion = t.session.latestVersion ∨
      t'.session.latestVersion = t.session.latestVersion + 1 ∧
        ∃ client, t'.progress client = .registered t'.session.latestVersion := by
  cases h with
  | @register client _ => exact .inr ⟨rfl, client, progress_advance_self _ _ _ _⟩
  | compute source starter => exact .inl rfl
  | publish => exact .inl (Session.latestVersion_publish _ _)
  | offer layout => exact .inl (Session.latestVersion_publish _ _)
  | read => exact .inl rfl

theorem Step.computed_of_publishes {client : Client} {layout : DiagramLayout} {shown : Bool}
    (h : Step t (.publishes client layout shown) t') : t.progress client = .computed layout := by
  cases h with
  | publish hcomputed => exact hcomputed

theorem Updates.step (h : Updates config measure trace t)
    (hkeeps : t.session.Keeps config measure) (hstep : Step t event t') :
    Updates config measure (trace ++ [event]) t' where
  accounted v hpos hle := by
    by_cases hold : v ≤ t.session.latestVersion
    · rcases h.accounted v hpos hold with ⟨client, hclient⟩ | ⟨client, layout, shown, hmem, hv⟩
      · -- the update with this version goes on, or publishes now
        cases hstep.advances client with
        | stays after => exact .inl ⟨client, by rw [after, hclient]⟩
        | registers before after => rw [before] at hclient; cases hclient
        | @computes version source starter before observed after =>
          rw [before] at hclient
          rw [(hkeeps.compute source version starter).1] at after
          exact .inl ⟨client, by rw [after]; exact hclient⟩
        | @publishes layout shown before observed after =>
          rw [before] at hclient
          exact .inr ⟨client, layout, shown, by simp [observed], Option.some.inj hclient⟩
      · exact .inr ⟨client, layout, shown, List.mem_append_left _ hmem, hv⟩
    · rcases hstep.latestVersion_new with hsame | ⟨hnew, client, hclient⟩
      · omega
      · exact .inl ⟨client, by rw [hclient]; exact congrArg some (by omega)⟩
  registered client v hregistered := by
    cases hstep.advances client with
    | stays after =>
      exact (h.registered client v (after.symm.trans hregistered)).trans hstep.latestVersion_le
    | registers before after =>
      rw [after] at hregistered
      cases hregistered
      exact Nat.le_refl _
    | computes source starter before observed after => rw [after] at hregistered; cases hregistered
    | publishes shown before observed after => rw [after] at hregistered; cases hregistered
  computed client layout hcomputed := by
    cases hstep.advances client with
    | stays after => exact (h.computed client layout (after.symm.trans hcomputed)).step hstep
    | registers before after => rw [after] at hcomputed; cases hcomputed
    | @computes version source starter before observed after =>
      rw [after] at hcomputed
      cases hcomputed
      have hlayout := (hkeeps.compute source version starter).1
      refine ⟨?_, source, starter, by simp [observed], ?_⟩
      · rw [hlayout]
        exact (h.registered client version before).trans hstep.latestVersion_le
      · rw [hlayout]
        rfl
    | publishes shown before observed after => rw [after] at hcomputed; cases hcomputed
  published client layout shown hpublished := by
    rcases List.mem_append.mp hpublished with hmem | hmem
    · exact (h.published client layout shown hmem).step hstep
    · rw [List.mem_singleton] at hmem
      subst hmem
      exact (h.computed client layout hstep.computed_of_publishes).step hstep

theorem Run.updates (h : Run config measure trace t) : Updates config measure trace t := by
  induction h with
  | start =>
    exact {
      accounted := fun v hpos hle => absurd hpos (Nat.not_lt.mpr hle)
      registered := fun _ _ hclient => nomatch hclient
      computed := fun _ _ hclient => nomatch hclient
      published := fun _ _ _ hmem => nomatch hmem }
  | step h hstep ih => exact ih.step h.keeps hstep

/-- Once no update is on its way, the layout that is visible is not older than the last edit. -/
theorem Run.latest_le_visible (h : Run config measure trace t)
    (hidle : ∀ client, t.progress client = .idle) (hpos : 1 ≤ t.session.latestVersion) :
    ∃ visible, t.session.current = some visible ∧
      t.session.latestVersion ≤ visible.version := by
  rcases h.updates.accounted _ hpos (Nat.le_refl _) with ⟨client, hclient⟩ |
    ⟨client, layout, shown, hmem, hversion⟩
  · rw [hidle client] at hclient
    cases hclient
  · have hpublished : layout.version ∈
        (trace.filterMap Event.publication?).map (·.1.version) :=
      List.mem_map.mpr ⟨(layout, shown), List.mem_filterMap.mpr ⟨_, hmem, rfl⟩, rfl⟩
    have hle := List.le_maximum_of_mem' hpublished
    rw [← h.visibleVersion_eq, hversion] at hle
    cases hcurrent : t.session.current with
    | none =>
      rw [Session.visibleVersion, hcurrent] at hle
      exact absurd (le_bot_iff.mp hle) WithBot.coe_ne_bot
    | some visible =>
      rw [Session.visibleVersion_of_current hcurrent] at hle
      exact ⟨visible, rfl, WithBot.coe_le_coe.mp hle⟩

/-- What is visible was offered from outside, or computed by a client. -/
theorem Run.offered_or_computed (h : Run config measure trace t) {visible : DiagramLayout}
    (hvisible : t.session.current = some visible) :
    (∃ shown, .offers visible shown ∈ trace) ∨
      ∃ client, ComputedBy config measure trace t client visible := by
  obtain ⟨event, hmem, shown, hevent⟩ := h.current_mem hvisible
  cases event with
  | publishes client layout accepted =>
    cases hevent
    exact .inr ⟨client, h.updates.published _ _ _ hmem⟩
  | offers layout accepted =>
    cases hevent
    exact .inl ⟨_, hmem⟩
  | registers _ _ => cases hevent
  | computes _ _ _ _ => cases hevent
  | sees _ => cases hevent

end Updates

/-! ### The visible layout -/

/-- **The visible layout never goes back.** Clients and readers share a session, in any order of
    their steps. The versions that are taken increase strictly, and there are as many of them as
    edits. The newest of the versions that were published is visible, `⊥` before the first. A layout
    is turned away exactly if a newer one is visible, and then that one stays. What the readers see
    never gets older. Once no update is on its way, the visible layout has the version of the last
    edit, or a newer one that was freely chosen; unless it was offered from outside, it is the layout
    of the source of the last edit. -/
theorem visible_layout_never_goes_back {config : LayoutConfig} {measure : TextMeasure}
    {trace : List (Event Client)} {t : SharedSession Client} (h : Run config measure trace t) :
    ((trace.filterMap Event.version?).Pairwise (· < ·) ∧
      t.session.latestVersion = (trace.filterMap Event.version?).length) ∧
    t.session.visibleVersion =
      ((trace.filterMap Event.publication?).map (·.1.version)).maximum ∧
    (∀ event t' layout shown, Step t event t' → event.publication? = some (layout, shown) →
      (shown = false ↔
        ∃ visible, t.session.current = some visible ∧ layout.version < visible.version) ∧
      t'.session.current = if shown then some layout else t.session.current) ∧
    (trace.filterMap Event.seen?).Pairwise (· ≤ ·) ∧
    ∀ latest, (trace.filterMap Event.version?).getLast? = some latest →
      (∀ client, t.progress client = .idle) →
      ∃ visible, t.session.current = some visible ∧
        (visible.version = latest ∨
          latest < visible.version ∧ ∃ shown, .offers visible shown ∈ trace) ∧
        ((∀ shown, .offers visible shown ∉ trace) →
          ∃ client source starter, .computes client source starter visible ∈ trace ∧
            visible = computeLayout measure config source latest starter) := by
  refine ⟨⟨?_, ?_⟩, h.visibleVersion_eq, ?_, (List.pairwise_append.mp h.seen_pairwise).1, ?_⟩
  · rw [h.versions_eq]
    exact List.pairwise_lt_range'
  · rw [h.versions_eq, List.length_range']
  · intro event t' layout shown hstep hevent
    obtain ⟨rfl, hcurrent⟩ := hstep.publication hevent
    exact ⟨t.session.publish_fst_eq_false_iff layout, hcurrent.trans (t.session.current_publish _)⟩
  · intro latest hlatest hidle
    rw [h.versions_eq, List.getLast?_range'] at hlatest
    split at hlatest
    · cases hlatest
    · next hne =>
      have hlast : t.session.latestVersion = latest := by
        rw [← Option.some.inj hlatest]
        omega
      obtain ⟨visible, hvisible, hle⟩ := h.latest_le_visible hidle (Nat.one_le_iff_ne_zero.mpr hne)
      rw [hlast] at hle
      refine ⟨visible, hvisible, ?_, fun hnot => ?_⟩
      · rcases h.offered_or_computed hvisible with hoffered | ⟨client, hcomputed⟩
        · exact hle.eq_or_lt.imp Eq.symm fun hlt => ⟨hlt, hoffered⟩
        · exact .inl (Nat.le_antisymm (hlast ▸ hcomputed.le_latest) hle)
      · rcases h.offered_or_computed hvisible with ⟨shown, hoffered⟩ | ⟨client, hcomputed⟩
        · exact absurd hoffered (hnot shown)
        · have hversion := Nat.le_antisymm (hlast ▸ hcomputed.le_latest) hle
          obtain ⟨source, starter, hmem, hlayout⟩ := hcomputed.computes
          exact ⟨client, source, starter, hmem, hversion ▸ hlayout⟩

/-- Two clients register an edit each, and the later edit is published first. The layout of the
    earlier one is turned away, and a reader sees the later one before and after that. -/
theorem late_layout_is_turned_away :
    ∃ (trace : List (Event Bool)) (t : SharedSession Bool) (visible : DiagramLayout),
      Run .standard (approximateMeasure defaultCharRatio) trace t ∧
      trace.filterMap Event.version? = [1, 2] ∧ (∀ client, t.progress client = .idle) ∧
      trace.filterMap (·.publication?.map fun p => (p.1.version, p.2)) = [(2, true), (1, false)] ∧
      trace.filterMap Event.seen? = [WithBot.some 2, WithBot.some 2] ∧
      t.session.current = some visible ∧
      ∃ client source starter, .computes client source starter visible ∈ trace ∧
        visible = computeLayout (approximateMeasure defaultCharRatio) .standard source 2 starter := by
  have h0 : Run .standard (approximateMeasure defaultCharRatio) ([] : List (Event Bool)) _ := .start
  have h1 := h0.step (@Step.register Bool _ _ true rfl)
  -- the second client overtakes the first
  have h2 := h1.step (@Step.register Bool _ _ false rfl)
  have h3 := h2.step (@Step.compute Bool _ _ false _ "B->A: new" none rfl)
  have h4 := h3.step (@Step.publish Bool _ _ false _ rfl)
  have h5 := h4.step .read
  have h6 := h5.step (@Step.compute Bool _ _ true _ "A->B: old" none rfl)
  have h7 := h6.step (@Step.publish Bool _ _ true _ rfl)
  have h8 := h7.step .read
  obtain ⟨-, -, -, -, hlatest⟩ := visible_layout_never_goes_back h8
  obtain ⟨visible, hvisible, -, hcomputed⟩ := hlatest 2 rfl fun client => by cases client <;> rfl
  refine ⟨_, _, visible, h8, rfl, fun client => by cases client <;> rfl, rfl, rfl, hvisible,
    hcomputed fun shown hmem => ?_⟩
  simp at hmem

end SharedSession

end SequenceDiagram
