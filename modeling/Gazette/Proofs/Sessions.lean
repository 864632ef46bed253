import Gazette.Proofs.Authority
import Gazette.Proofs.Instant
import Gazette.Proofs.Integrity

/-!
# Sessions

A token stands for a user from the creation of its session until the session ends, unless the user
is deleted before that. Sessions that have ended can be removed at any time: from the second on in
which a session no longer stands for its user it may be removed, and before that it may not. Under
a clock that never goes back a session that has ended stays so.
-/
namespace Gazette

namespace Timestamp
open Text

/-- The first second of the year 0. -/
def firstSecond : Int := -62167219200

/-- Whether a second is in the years 0 to 9999, which are written with four digits. -/
def InFourDigits (seconds : Int) : Prop :=
  firstSecond ≤ seconds ∧ seconds ≤ Store.lastSecond

instance (seconds : Int) : Decidable (InFourDigits seconds) :=
  inferInstanceAs (Decidable (_ ∧ _))

theorem year_mono {a b : Int} (h : a ≤ b) :
    (CivilDate.ofDays a).year ≤ (CivilDate.ofDays b).year := by
  rcases h.lt_or_eq with hless | rfl
  · have hbefore := CivilDate.ofDays_isBefore hless
    unfold CivilDate.IsBefore at hbefore
    omega
  · exact le_refl _

theorem InFourDigits.hasPlainYear {seconds : Int} (h : InFourDigits seconds) :
    HasPlainYear (ofSeconds seconds) := by
  have hfirst : firstSecond / 86400 ≤ seconds / 86400 := Int.ediv_le_ediv (by decide) h.1
  have hlast : seconds / 86400 ≤ Store.lastSecond / 86400 := Int.ediv_le_ediv (by decide) h.2
  exact ⟨year_mono hfirst, year_mono hlast⟩

theorem length_clockText (seconds : Int) : (clockText (ofSeconds seconds)).length = 8 := by
  have hsecond : (seconds % 86400).toNat < 86400 := by omega
  simp only [clockText, ofSeconds, fractionText]
  generalize (seconds % 86400).toNat = second at hsecond
  simp [length_padded (by decide : 0 < 2) (by omega : second / 3600 < 10 ^ 2),
    length_padded (by decide : 0 < 2) (by omega : second / 60 % 60 < 10 ^ 2),
    length_padded (by decide : 0 < 2) (by omega : second % 60 < 10 ^ 2)]

theorem secondText_lt {a b : Int} (ha : InFourDigits a) (hb : InFourDigits b) (h : a < b) :
    secondText a < secondText b := by
  rw [String.lt_iff_toList_lt, secondText, secondText, String.toList_ofList, String.toList_ofList]
  by_cases hday : a / 86400 = b / 86400
  · rw [hday]
    refine List.append_left_lt (List.cons_lt_cons_self.2 ?_)
    have hlength : (clockText (ofSeconds a)).length = (clockText (ofSeconds b)).length := by
      rw [length_clockText, length_clockText]
    exact lt_of_append_lt hlength (clockText_append_lt hday (.inl h))
  · have hless : a / 86400 < b / 86400 := by omega
    obtain ⟨hmonth, hday⟩ := CivilDate.ofDays_bounds (b / 86400)
    exact dateText_append_lt ha.hasPlainYear hb.hasPlainYear hmonth hday
      (CivilDate.ofDays_isBefore hless)

theorem secondText_lt_iff {a b : Int} (ha : InFourDigits a) (hb : InFourDigits b) :
    secondText a < secondText b ↔ a < b := by
  refine ⟨fun h => ?_, secondText_lt ha hb⟩
  rcases lt_trichotomy a b with hless | rfl | hmore
  · exact hless
  · exact absurd h (lt_irrefl _)
  · exact absurd h (secondText_lt hb ha hmore).asymm

end Timestamp

namespace Store
variable {s t : Store} {now later : Timestamp} {session : Session}

theorem isLive_eq (now : Timestamp) (session : Session) :
    isLive now session = !hasEnded now session := by
  rw [Bool.eq_iff_iff]
  simp [isLive, hasEnded]

theorem isLive_antitone (hnow : Timestamp.InFourDigits now.seconds)
    (hlater : Timestamp.InFourDigits later.seconds) (h : now.seconds ≤ later.seconds)
    (hlive : isLive later session = true) : isLive now session = true := by
  have hafter : Timestamp.secondText later.seconds < session.expiresAt := of_decide_eq_true hlive
  have hbefore : Timestamp.secondText now.seconds < session.expiresAt := by
    rcases h.lt_or_eq with hless | hsame
    · exact (Timestamp.secondText_lt hnow hlater hless).trans hafter
    · exact hsame ▸ hafter
  exact decide_eq_true hbefore

/-- A token of a sound store stands for the user of its session, as long as the session goes on. -/
theorem authenticate?_eq_some_iff (hs : s.Sound) {token : String} {user : User} :
    s.authenticate? token now = some user ↔
      ∃ session ∈ s.sessions, session.token = token ∧ isLive now session = true ∧
        s.users.row? session.userId = some user := by
  unfold authenticate?
  rw [Option.bind_eq_bind, Option.bind_eq_some_iff]
  constructor
  · rintro ⟨session, hfind, hrow⟩
    have hkept := List.find?_some hfind
    rw [Bool.and_eq_true, beq_iff_eq] at hkept
    exact ⟨session, List.mem_of_find?_eq_some hfind, hkept.1, hkept.2, hrow⟩
  · rintro ⟨session, hmem, rfl, hlive, hrow⟩
    have hsome : (s.sessions.find? fun other =>
        other.token == session.token && isLive now other).isSome = true :=
      List.find?_isSome.2 ⟨session, hmem, by simp [hlive]⟩
    obtain ⟨found, hfound⟩ := Option.isSome_iff_exists.1 hsome
    have hkept := List.find?_some hfound
    rw [Bool.and_eq_true, beq_iff_eq] at hkept
    obtain rfl : found = session :=
      List.inj_on_of_nodup_map hs.session_tokens (List.mem_of_find?_eq_some hfound) hmem hkept.1
    exact ⟨found, hfound, hrow⟩

def withSessions (s : Store) (sessions : List Session) : Store :=
  { s with sessions := sessions }

theorem aside_withSessions (sessions : List Session) : Aside (·.withSessions sessions) where
  posts _ := rfl
  links _ := rfl
  comments _ := rfl
  withPosts _ _ _ := rfl
  withComments _ _ := rfl

open Classical in
theorem deleteUser_withSessions (hs : s.Sound) (id : String) (sessions : List Session) :
    (s.withSessions sessions).deleteUser id =
      (s.deleteUser id).map fun result => (result.1, result.2.withSessions
        (if s.users.has id then sessions.filter (·.userId != id) else sessions)) := by
  have hwith := deleteUser_eq (s := s.withSessions sessions) id hs.replies_later hs.comment_ids
  have hlong : (s.withSessions sessions).TooLongForUser id = s.TooLongForUser id := rfl
  rw [hwith, hlong, deleteUser_eq id hs.replies_later hs.comment_ids]
  show deleting id s.users _ _ = _
  unfold deleting
  by_cases hhas : s.users.has id = true
  · simp only [hhas, if_true]
    split <;> rfl
  · simp only [hhas]
    rfl

end Store

namespace Change
variable {s t : Store} {change : Change}

def IsSession : Change → Prop
  | createSession .. | purgeSessions _ => True
  | _ => False

/-- The sessions that are left after a change that is not about sessions. They go with their
user. -/
def keptSessions (change : Change) (s : Store) (sessions : List Session) : List Session :=
  match change with
  | deleteUser id => if s.users.has id then sessions.filter (·.userId != id) else sessions
  | _ => sessions

theorem apply_withSessions (h : ¬ change.IsSession) (hs : s.Sound) (sessions : List Session) :
    change.apply (s.withSessions sessions) =
      (change.apply s).map fun t => t.withSessions (change.keptSessions s sessions) := by
  cases change with
  | saveUser user =>
      simp only [apply, Store.saveUser, map_then]
      rfl
  | saveCategory category =>
      simp only [apply, Store.saveCategory, map_then]
      rfl
  | saveTag tag =>
      simp only [apply, Store.saveTag, map_then]
      rfl
  | savePost post =>
      simp only [apply, Store.savePost, map_then]
      rfl
  | saveComment comment =>
      simp only [apply, Store.saveComment, map_then]
      rfl
  | deleteUser id =>
      simp only [apply, Store.deleteUser_withSessions hs]
      cases s.deleteUser id <;> rfl
  | deletePost id =>
      simp only [apply, (Store.aside_withSessions sessions).deletePost]
      cases s.deletePost id <;> rfl
  | deleteComment id =>
      simp only [apply, (Store.aside_withSessions sessions).deleteComment]
      cases s.deleteComment id <;> rfl
  | addLike id =>
      simp only [apply, Store.addLike, Store.withSessions]
      cases s.posts.row? id with
      | none => rfl
      | some row => rfl
  | saveMessage | saveSettings | deleteCategory | deleteTag | deleteMessage | recordView => rfl
  | createSession | purgeSessions => exact absurd trivial h

theorem sessions_of_apply (hchange : ¬ change.IsSession) (hs : s.Sound)
    (h : change.apply s = .ok t) : t.sessions = change.keptSessions s s.sessions := by
  have hself : change.apply s = (change.apply s).map _ := apply_withSessions hchange hs s.sessions
  rw [h] at hself
  exact congrArg Store.sessions (Except.ok.inj hself)

/-- What a change leaves of the rest of a store does not depend on the sessions. -/
theorem rest_after (hs : s.Sound) (h : s.withSessions [] = t.withSessions []) :
    (change.after s).withSessions [] = (change.after t).withSessions [] := by
  have ht : t = s.withSessions t.sessions := by
    have hrest := congrArg (Store.withSessions · t.sessions) h
    exact hrest.symm
  by_cases hsession : change.IsSession
  · have hkept : ∀ u : Store, (change.after u).withSessions [] = u.withSessions [] := by
      intro u
      rcases change.after_cases u with hsame | happly
      · rw [hsame]
      · cases change with
        | createSession id token userId hours now =>
            obtain ⟨-, -, -, hu⟩ := Store.createSession_ok.1 happly
            rw [hu]
            rfl
        | purgeSessions now =>
            rw [← Except.ok.inj happly]
            rfl
        | _ => exact hsession.elim
    rw [hkept, hkept, h]
  · have happly := apply_withSessions hsession hs t.sessions
    rw [← ht] at happly
    unfold after
    rw [happly]
    cases change.apply s with
    | ok u => rfl
    | error e => exact h

end Change

/-- Whether something happened in a run and something else has not happened since. -/
def Since {α : Type} (P E : α → Prop) (l : List α) : Prop :=
  ∃ earlier x later, l = earlier ++ x :: later ∧ P x ∧ ∀ y ∈ later, ¬ E y

theorem since_nil {α : Type} {P E : α → Prop} : ¬ Since P E [] := by
  rintro ⟨earlier, x, later, h, -⟩
  simp at h

theorem since_append_singleton {α : Type} {P E : α → Prop} {l : List α} {x : α} :
    Since P E (l ++ [x]) ↔ P x ∨ Since P E l ∧ ¬ E x := by
  constructor
  · rintro ⟨earlier, y, later, h, hy, hlater⟩
    rcases List.eq_nil_or_concat later with rfl | ⟨later, z, rfl⟩
    · obtain ⟨-, hx⟩ := List.append_inj' h rfl
      exact .inl (List.head_eq_of_cons_eq hx ▸ hy)
    · rw [List.concat_eq_append, ← List.cons_append, ← List.append_assoc] at h
      obtain ⟨hl, hx⟩ := List.append_inj' h rfl
      obtain rfl := List.head_eq_of_cons_eq hx
      rw [List.concat_eq_append] at hlater
      exact .inr ⟨⟨earlier, y, later, hl, hy, fun w hw => hlater w (by simp [hw])⟩,
        hlater x (by simp)⟩
  · rintro (hx | ⟨⟨earlier, y, later, rfl, hy, hlater⟩, hx⟩)
    · exact ⟨l, x, [], rfl, hx, by simp⟩
    · refine ⟨earlier, y, later ++ [x], by simp, hy, ?_⟩
      intro z hz
      rcases List.mem_append.1 hz with hz | hz
      · exact hlater z hz
      · exact List.mem_singleton.1 hz ▸ hx

theorem Since.imp {α : Type} {P E Q F : α → Prop} {l : List α} (h : Since P E l)
    (hP : ∀ x ∈ l, P x → Q x) (hE : ∀ x ∈ l, ∀ y ∈ l, P x → F y → E y) : Since Q F l := by
  obtain ⟨earlier, x, later, rfl, hx, hlater⟩ := h
  have hmem : x ∈ earlier ++ x :: later := by simp
  refine ⟨earlier, x, later, rfl, hP x hmem hx, fun y hy hF => hlater y hy ?_⟩
  exact hE x hmem y (by simp [hy]) hx hF

/-- What happens in a run: a change of the store, or a request whose caller is to be found out. -/
inductive Event
  | change (change : Change)
  | attempt (x : Api.Exchange)

namespace Event
variable {s t : Store} {events : List Event} {session : Session}

def time? : Event → Option Timestamp
  | change (.createSession _ _ _ _ now) => some now
  | change (.purgeSessions now) => some now
  | change _ => none
  | attempt x => some x.now

def sessionId? : Event → Option String
  | change (.createSession id _ _ _ _) => some id
  | _ => none

def token? : Event → Option String
  | change (.createSession _ token _ _ _) => some token
  | _ => none

/-- Every session of a run is created with an id and a token of its own. -/
structure Distinct (events : List Event) : Prop where
  ids : (events.filterMap sessionId?).Nodup
  tokens : (events.filterMap token?).Nodup

/-- The clock of a run never goes back, and shows years of four digits. -/
structure Steady (events : List Event) : Prop where
  forward : (events.filterMap time?).Pairwise fun a b => a.isNoLater b = true
  years : ∀ now ∈ events.filterMap time?, Timestamp.InFourDigits now.seconds

/-- The store after an event. To find out a caller changes nothing. -/
def after : Event → Store → Store
  | change c, s => c.after s
  | attempt _, s => s

def run (events : List Event) (s : Store) : Store :=
  events.foldl (fun s event => event.after s) s

/-- The events of a run, each after the store that it finds. -/
def steps : List Event → Store → List (Store × Event)
  | [], _ => []
  | event :: events, s => (s, event) :: steps events (event.after s)

def callers : List Event → Store → List (Option Api.Caller)
  | [], _ => []
  | change c :: events, s => callers events (c.after s)
  | attempt x :: events, s => x.callerIn s :: callers events s

theorem run_append_singleton (events : List Event) (event : Event) (s : Store) :
    run (events ++ [event]) s = event.after (run events s) := by
  simp [run]

theorem steps_append_singleton (events : List Event) (event : Event) (s : Store) :
    steps (events ++ [event]) s = steps events s ++ [(run events s, event)] := by
  induction events generalizing s with
  | nil => rfl
  | cons first events ih => exact congrArg (_ :: ·) (ih _)

theorem mem_of_mem_steps {step : Store × Event} (h : step ∈ steps events s) :
    step.2 ∈ events := by
  induction events generalizing s with
  | nil => cases h
  | cons event events ih =>
      rcases List.mem_cons.1 h with rfl | hrest
      · exact List.mem_cons_self
      · exact List.mem_cons_of_mem _ (ih hrest)

theorem after_sound (event : Event) (hs : s.Sound) : (event.after s).Sound := by
  cases event with
  | change c =>
      show (c.after s).Sound
      rcases c.after_cases s with hsame | happly
      · rwa [hsame]
      · exact c.keeps_sound s _ happly hs
  | attempt x => exact hs

theorem run_sound (events : List Event) (hs : s.Sound) : (run events s).Sound := by
  induction events generalizing s with
  | nil => exact hs
  | cons event events ih => exact ih (event.after_sound hs)

/-- Whether a step creates a session of some hours. -/
def Creates (step : Store × Event) (id token userId : String) (hours : Nat) (now : Timestamp) :
    Prop :=
  step.2 = .change (.createSession id token userId hours now) ∧
    ∃ t, step.1.createSession id token userId hours now = .ok t

def Deletes (step : Store × Event) (userId : String) : Prop :=
  step.2 = .change (.deleteUser userId) ∧ ∃ t, step.1.deleteUser userId = .ok (true, t)

def Issues (step : Store × Event) (session : Session) : Prop :=
  ∃ hours now, Creates step session.id session.token session.userId hours now ∧
    session.expiresAt = Timestamp.secondText (Store.expiry now hours)

/-- Whether a step removes a session because it has ended. -/
def Purges (step : Store × Event) (session : Session) : Prop :=
  ∃ now, step.2 = .change (.purgeSessions now) ∧ Store.hasEnded now session = true

theorem issues_create {id token userId : String} {hours : Nat} {now : Timestamp} :
    Issues (s, .change (.createSession id token userId hours now)) session ↔
      (∃ t, s.createSession id token userId hours now = .ok t) ∧
        session = ⟨id, token, userId, Timestamp.secondText (Store.expiry now hours)⟩ := by
  constructor
  · rintro ⟨hours, now, ⟨hevent, hcreate⟩, hexpires⟩
    cases hevent
    exact ⟨hcreate, by rw [← hexpires]⟩
  · rintro ⟨hcreate, rfl⟩
    exact ⟨hours, now, ⟨rfl, hcreate⟩, rfl⟩

theorem deletes_delete {id userId : String} :
    Deletes (s, .change (.deleteUser id)) userId ↔
      id = userId ∧ ∃ t, s.deleteUser id = .ok (true, t) := by
  constructor
  · rintro ⟨hevent, hdelete⟩
    cases hevent
    exact ⟨rfl, hdelete⟩
  · rintro ⟨rfl, hdelete⟩
    exact ⟨rfl, hdelete⟩

theorem mem_sessions_deleteUser (hs : s.Sound) {id : String} :
    session ∈ ((Change.deleteUser id).after s).sessions ↔
      session ∈ s.sessions ∧ ¬ Deletes (s, .change (.deleteUser id)) session.userId := by
  rw [deletes_delete]
  cases hdelete : s.deleteUser id with
  | error e => simp [Change.after, Change.apply, hdelete, Except.toOption, Except.map]
  | ok result =>
      obtain ⟨found, t⟩ := result
      have happly : (Change.deleteUser id).apply s = .ok t := by
        rw [Change.apply, hdelete]
        rfl
      have hkept := Change.sessions_of_apply (by exact not_false) hs happly
      have hfound : found = s.users.has id :=
        (Store.deleteUser_ok hs.replies_later hs.comment_ids hdelete).1
      rw [Change.after, happly]
      show session ∈ t.sessions ↔ _
      rw [hkept, Change.keptSessions, hfound]
      cases s.users.has id with
      | false => simp
      | true => simp [eq_comm (a := id)]

/-- A session is there after an event if it was just created, or if it was there before and has
gone neither with its user nor because it had ended. -/
theorem mem_sessions_after (hs : s.Sound) (event : Event) :
    session ∈ (event.after s).sessions ↔
      Issues (s, event) session ∨ session ∈ s.sessions ∧
        ¬ (Deletes (s, event) session.userId ∨ Purges (s, event) session) := by
  cases event with
  | attempt x => simp [Issues, Creates, Deletes, Purges, after]
  | change c =>
      show session ∈ (c.after s).sessions ↔ _
      cases c with
      | createSession id token userId hours now =>
          have hkeeps : ¬ (Deletes (s, .change (.createSession id token userId hours now))
              session.userId ∨ Purges (s, .change (.createSession id token userId hours now))
                session) := by
            simp [Deletes, Purges]
          rw [issues_create, and_iff_left hkeeps]
          cases hcreate : s.createSession id token userId hours now with
          | error e => simp [Change.after, Change.apply, hcreate, Except.toOption]
          | ok t =>
              obtain ⟨-, -, -, rfl⟩ := Store.createSession_ok.1 hcreate
              simp [Change.after, Change.apply, hcreate, Except.toOption, or_comm]
      | purgeSessions now =>
          simp [Issues, Creates, Deletes, Purges, Change.after, Change.apply, Except.toOption,
            Store.purgeSessions]
      | deleteUser id =>
          rw [mem_sessions_deleteUser hs]
          simp [Issues, Creates, Purges]
      | _ =>
          simp only [Issues, Creates, Deletes, Purges, change.injEq, reduceCtorEq, false_and,
            exists_false, or_self, not_false_eq_true, and_true, false_or]
          rcases Change.after_cases _ s with hsame | happly
          · rw [hsame]
          · have hkept := Change.sessions_of_apply (by exact not_false) hs happly
            exact iff_of_eq (congrArg (session ∈ ·) hkept)

/-- What is there of the sessions after a run: what was created and has not been removed since. -/
theorem mem_sessions_run (hs : s.Sound) (hnone : s.sessions = []) :
    session ∈ (run events s).sessions ↔
      Since (Issues · session) (fun step => Deletes step session.userId ∨ Purges step session)
        (steps events s) := by
  induction events using List.reverseRecOn with
  | nil => simp [run, steps, hnone, since_nil]
  | append_singleton events event ih =>
      rw [run_append_singleton, steps_append_singleton, since_append_singleton,
        mem_sessions_after (run_sound events hs), ih]

/-- Whether a session of a user was created under a token in a run, so many hours ago that it still
goes on, and the user has not been deleted since. -/
def StandsFor (steps : List (Store × Event)) (token userId : String) (now : Timestamp) : Prop :=
  Since (fun step => ∃ id hours created, Creates step id token userId hours created ∧
      now.seconds < created.seconds + 3600 * hours)
    (Deletes · userId) steps

theorem time_of_mem {event : Event} {now : Timestamp} (h : event ∈ events)
    (htime : event.time? = some now) : now ∈ events.filterMap time? :=
  List.mem_filterMap.2 ⟨event, h, htime⟩

theorem isNoLater_seconds {a b : Timestamp} (h : a.isNoLater b = true) :
    a.seconds ≤ b.seconds := by
  simp only [Timestamp.isNoLater, Bool.or_eq_true, Bool.and_eq_true, decide_eq_true_eq,
    beq_iff_eq] at h
  omega

theorem Steady.tail {event : Event} (h : Steady (event :: events)) : Steady events where
  forward := h.forward.sublist ((List.sublist_cons_self event events).filterMap time?)
  years := fun now hnow =>
    h.years now (((List.sublist_cons_self event events).filterMap time?).subset hnow)

theorem Distinct.tail {event : Event} (h : Distinct (event :: events)) : Distinct events where
  ids := h.ids.sublist ((List.sublist_cons_self event events).filterMap sessionId?)
  tokens := h.tokens.sublist ((List.sublist_cons_self event events).filterMap token?)

theorem Steady.seconds_le {before rest : List Event} {first second : Event} {now later : Timestamp}
    (h : Steady (before ++ second :: rest)) (hmem : first ∈ before)
    (hfirst : first.time? = some now) (hsecond : second.time? = some later) :
    now.seconds ≤ later.seconds := by
  have hforward := h.forward
  rw [List.filterMap_append, List.pairwise_append] at hforward
  exact isNoLater_seconds (hforward.2.2 now (time_of_mem hmem hfirst) later
    (time_of_mem List.mem_cons_self hsecond))

/-- A session goes on up to the second before the one in which it was to end. -/
theorem isLive_created {step : Store × Event} {id token userId : String} {hours : Nat}
    {created now : Timestamp} (hcreates : Creates step id token userId hours created)
    (hcreated : Timestamp.InFourDigits created.seconds)
    (hnow : Timestamp.InFourDigits now.seconds) :
    Store.isLive now ⟨id, token, userId, Timestamp.secondText (Store.expiry created hours)⟩ = true ↔
      now.seconds < created.seconds + 3600 * hours := by
  obtain ⟨-, t, hcreate⟩ := hcreates
  obtain ⟨hlast, -⟩ := Store.createSession_ok.1 hcreate
  have hexpiry : Timestamp.InFourDigits (Store.expiry created hours) := by
    refine ⟨?_, hlast⟩
    have hfirst := hcreated.1
    unfold Store.expiry
    omega
  rw [Store.isLive, decide_eq_true_eq, Timestamp.secondText_lt_iff hnow hexpiry]
  rfl

/-- A token stands for a user exactly if there is a session that goes on. Since the clock does not
go back, no session was removed that would still go on. -/
theorem standsFor_iff {before rest : List Event} {x : Api.Exchange} (hs : s.Sound)
    (hnone : s.sessions = []) (hsteady : Steady (before ++ .attempt x :: rest))
    {token userId : String} :
    StandsFor (steps before s) token userId x.now ↔
      ∃ session ∈ (run before s).sessions, session.token = token ∧ session.userId = userId ∧
        Store.isLive x.now session = true := by
  have hyears : ∀ event ∈ before, ∀ now, event.time? = some now →
      Timestamp.InFourDigits now.seconds := fun event hevent now htime =>
    hsteady.years now (time_of_mem (List.mem_append_left _ hevent) htime)
  have hnow : Timestamp.InFourDigits x.now.seconds :=
    hsteady.years x.now (time_of_mem (List.mem_append_right _ List.mem_cons_self) rfl)
  have htime : ∀ {step : Store × Event} {id token userId : String} {hours : Nat}
      {created : Timestamp}, step ∈ steps before s → Creates step id token userId hours created →
        Timestamp.InFourDigits created.seconds := by
    intro step id token userId hours created hstep hcreates
    refine hyears step.2 (mem_of_mem_steps hstep) created ?_
    rw [hcreates.1]
    rfl
  constructor
  · rintro ⟨earlier, step, later, hsplit, ⟨id, hours, created, hcreates, hends⟩, hlater⟩
    have hmem : ∀ other, other ∈ step :: later → other ∈ steps before s := fun other hother =>
      hsplit ▸ List.mem_append_right earlier hother
    have hlive := (isLive_created hcreates (htime (hmem step List.mem_cons_self) hcreates)
      hnow).2 hends
    refine ⟨_, (mem_sessions_run hs hnone).2 ⟨earlier, step, later, hsplit,
      ⟨hours, created, hcreates, rfl⟩, ?_⟩, rfl, rfl, hlive⟩
    -- A later purge cannot have removed the session, as it goes on now and the clock only advances.
    rintro other hother (hdeletes | ⟨now, hpurge, hended⟩)
    · exact hlater other hother hdeletes
    · have hevent := mem_of_mem_steps (hmem other (List.mem_cons_of_mem _ hother))
      have hpurged : other.2.time? = some now := by
        rw [hpurge]
        rfl
      have hbefore := Store.isLive_antitone (hyears _ hevent now hpurged) hnow
        (hsteady.seconds_le hevent hpurged rfl) hlive
      rw [Store.isLive_eq, hended] at hbefore
      cases hbefore
  · rintro ⟨session, hsession, rfl, rfl, hlive⟩
    refine ((mem_sessions_run hs hnone).1 hsession).imp ?_ fun _ _ _ _ _ h => .inl h
    rintro step hstep ⟨hours, created, hcreates, hexpires⟩
    refine ⟨_, hours, created, hcreates, (isLive_created hcreates (htime hstep hcreates) hnow).1 ?_⟩
    rw [← hexpires]
    exact hlive

theorem callerIn_eq_some {x : Api.Exchange} {token : String} {caller : Api.Caller}
    (hs : s.Sound) (htoken : x.request.token? x.site.cookieName = some token) :
    x.callerIn s = some caller ↔
      ∃ session ∈ s.sessions, session.token = token ∧ Store.isLive x.now session = true ∧
        ∃ user, s.users.row? session.userId = some user ∧ Api.Caller.ofUser user = caller := by
  unfold Api.Exchange.callerIn
  rw [htoken, Option.bind_some, Option.map_eq_some_iff]
  constructor
  · rintro ⟨user, huser, hcaller⟩
    obtain ⟨session, hmem, hid, hlive, hrow⟩ := (Store.authenticate?_eq_some_iff hs).1 huser
    exact ⟨session, hmem, hid, hlive, user, hrow, hcaller⟩
  · rintro ⟨session, hmem, hid, hlive, user, hrow, hcaller⟩
    exact ⟨user, (Store.authenticate?_eq_some_iff hs).2 ⟨session, hmem, hid, hlive, hrow⟩, hcaller⟩

theorem callerIn_run {before rest : List Event} {x : Api.Exchange} {token : String}
    (hs : s.Sound) (hnone : s.sessions = []) (hsteady : Steady (before ++ .attempt x :: rest))
    (htoken : x.request.token? x.site.cookieName = some token) :
    (∀ userId, StandsFor (steps before s) token userId x.now →
      ∃ user, (run before s).users.row? userId = some user ∧
        x.callerIn (run before s) = some (.ofUser user)) ∧
    ((∀ userId, ¬ StandsFor (steps before s) token userId x.now) →
      x.callerIn (run before s) = none) := by
  have hsound := run_sound before hs
  constructor
  · intro userId hstands
    obtain ⟨session, hmem, hid, rfl, hlive⟩ := (standsFor_iff hs hnone hsteady).1 hstands
    obtain ⟨user, hrow⟩ := Table.exists_row?_of_has (hsound.session_user session hmem)
    exact ⟨user, hrow,
      (callerIn_eq_some hsound htoken).2 ⟨session, hmem, hid, hlive, user, hrow, rfl⟩⟩
  · intro hnever
    cases hcaller : x.callerIn (run before s) with
    | none => rfl
    | some caller =>
        obtain ⟨session, hmem, hid, hlive, -⟩ := (callerIn_eq_some hsound htoken).1 hcaller
        exact absurd ((standsFor_iff hs hnone hsteady).2 ⟨session, hmem, hid, rfl, hlive⟩)
          (hnever session.userId)

/-- Some events without some of the purges among them. -/
inductive Sparing : List Event → List Event → Prop
  | nil : Sparing [] []
  | keep {fewer events : List Event} (event : Event) : Sparing fewer events →
      Sparing (event :: fewer) (event :: events)
  | drop {fewer events : List Event} (now : Timestamp) : Sparing fewer events →
      Sparing fewer (.change (.purgeSessions now) :: events)

/-- Two stores that cannot be told apart by what is left of a run. They differ at most in sessions
that have ended, and no id or token is taken in them that is still to come. -/
structure Alike (events : List Event) (s t : Store) : Prop where
  sound : s.Sound ∧ t.Sound
  rest : s.withSessions [] = t.withSessions []
  live : ∀ now ∈ events.filterMap time?, ∀ session, Store.isLive now session = true →
    (session ∈ s.sessions ↔ session ∈ t.sessions)
  free_id : ∀ id ∈ events.filterMap sessionId?, ∀ session,
    session ∈ s.sessions ∨ session ∈ t.sessions → session.id ≠ id
  free_token : ∀ token ∈ events.filterMap token?, ∀ session,
    session ∈ s.sessions ∨ session ∈ t.sessions → session.token ≠ token

theorem Alike.symm (h : Alike events s t) : Alike events t s where
  sound := h.sound.symm
  rest := h.rest.symm
  live := fun now hnow session hlive => (h.live now hnow session hlive).symm
  free_id := fun id hid session hsession => h.free_id id hid session hsession.symm
  free_token := fun token htoken session hsession => h.free_token token htoken session hsession.symm

theorem Alike.users_eq (h : Alike events s t) : s.users = t.users :=
  congrArg (·.users) h.rest

theorem Alike.callerIn_eq {x : Api.Exchange} (h : Alike (.attempt x :: events) s t) :
    x.callerIn s = x.callerIn t := by
  cases htoken : x.request.token? x.site.cookieName with
  | none => simp [Api.Exchange.callerIn, htoken]
  | some token =>
      refine Option.ext fun caller => ?_
      rw [callerIn_eq_some h.sound.1 htoken, callerIn_eq_some h.sound.2 htoken, h.users_eq]
      have hlive := h.live x.now (time_of_mem List.mem_cons_self rfl)
      constructor
      · rintro ⟨session, hmem, hid, hgoes, huser⟩
        exact ⟨session, (hlive session hgoes).1 hmem, hid, hgoes, huser⟩
      · rintro ⟨session, hmem, hid, hgoes, huser⟩
        exact ⟨session, (hlive session hgoes).2 hmem, hid, hgoes, huser⟩

theorem Alike.issues {event : Event} (h : Alike (event :: events) s t) {session : Session}
    (hissues : Issues (s, event) session) : Issues (t, event) session := by
  obtain ⟨hours, now, ⟨hevent, u, hcreate⟩, hexpires⟩ := hissues
  obtain ⟨hlast, -, huser, -⟩ := Store.createSession_ok.1 hcreate
  have hid : session.id ∈ (event :: events).filterMap sessionId? :=
    List.mem_filterMap.2 ⟨event, List.mem_cons_self, congrArg sessionId? hevent⟩
  have htoken : session.token ∈ (event :: events).filterMap token? :=
    List.mem_filterMap.2 ⟨event, List.mem_cons_self, congrArg token? hevent⟩
  exact ⟨hours, now, ⟨hevent, _, Store.createSession_ok.2 ⟨hlast, fun other hother =>
    ⟨h.free_id _ hid other (.inr hother), h.free_token _ htoken other (.inr hother)⟩,
    h.users_eq ▸ huser, rfl⟩⟩, hexpires⟩

theorem Alike.deletes {event : Event} (h : Alike events s t) {userId : String}
    (hdeletes : Deletes (s, event) userId) : Deletes (t, event) userId := by
  obtain ⟨hevent, u, hdelete⟩ := hdeletes
  have ht : t = s.withSessions t.sessions :=
    (congrArg (Store.withSessions · t.sessions) h.rest).symm
  refine ⟨hevent, ?_⟩
  rw [ht]
  show ∃ u, Store.deleteUser userId (s.withSessions t.sessions) = .ok (true, u)
  rw [Store.deleteUser_withSessions h.sound.1, show s.deleteUser userId = _ from hdelete]
  exact ⟨_, rfl⟩

/-- A session that is created now has no value that a later one is to have on its own. -/
theorem Issues.ne_later {u : Store} {event : Event} {value? : Event → Option String}
    {column : Session → String} (hissues : Issues (u, event) session)
    (hcolumn : ∀ hours now, event = .change (.createSession session.id session.token session.userId
      hours now) → value? event = some (column session))
    (hdistinct : ((event :: events).filterMap value?).Nodup) {value : String}
    (hlater : value ∈ events.filterMap value?) : column session ≠ value := by
  rintro rfl
  obtain ⟨hours, now, ⟨hevent, -⟩, -⟩ := hissues
  rw [List.filterMap_cons_some (hcolumn hours now hevent), List.nodup_cons] at hdistinct
  exact hdistinct.1 hlater

/-- A session that is there after an event was there before it or was created by it. -/
theorem Alike.mem_after {event : Event} (h : Alike (event :: events) s t)
    (hsession : session ∈ (event.after s).sessions ∨ session ∈ (event.after t).sessions) :
    (session ∈ s.sessions ∨ session ∈ t.sessions) ∨ ∃ u, Issues (u, event) session := by
  rw [mem_sessions_after h.sound.1, mem_sessions_after h.sound.2] at hsession
  rcases hsession with (hissues | hold) | (hissues | hold)
  · exact .inr ⟨s, hissues⟩
  · exact .inl (.inl hold.1)
  · exact .inr ⟨t, hissues⟩
  · exact .inl (.inr hold.1)

/-- An event that happens to both of two stores does not tell them apart. -/
theorem Alike.after {event : Event} (h : Alike (event :: events) s t)
    (hdistinct : Distinct (event :: events)) :
    Alike events (event.after s) (event.after t) where
  sound := ⟨event.after_sound h.sound.1, event.after_sound h.sound.2⟩
  rest := by
    cases event with
    | change c => exact c.rest_after h.sound.1 h.rest
    | attempt x => exact h.rest
  live := fun now hnow session hlive => by
    have hlater : now ∈ (event :: events).filterMap time? :=
      ((List.sublist_cons_self event events).filterMap time?).subset hnow
    have hissues : Issues (s, event) session ↔ Issues (t, event) session :=
      ⟨h.issues, h.symm.issues⟩
    have hdeletes : Deletes (s, event) session.userId ↔ Deletes (t, event) session.userId :=
      ⟨h.deletes, h.symm.deletes⟩
    rw [mem_sessions_after h.sound.1, mem_sessions_after h.sound.2, hissues, hdeletes,
      h.live now hlater session hlive]
    rfl
  free_id := fun id hid session hsession => by
    rcases h.mem_after hsession with hold | ⟨u, hissues⟩
    · have hsublist := (List.sublist_cons_self event events).filterMap sessionId?
      exact h.free_id id (hsublist.subset hid) session hold
    · exact hissues.ne_later (fun _ _ hevent => congrArg sessionId? hevent) hdistinct.ids hid
  free_token := fun token htoken session hsession => by
    rcases h.mem_after hsession with hold | ⟨u, hissues⟩
    · exact h.free_token token (((List.sublist_cons_self event events).filterMap _).subset htoken)
        session hold
    · exact hissues.ne_later (fun _ _ hevent => congrArg token? hevent) hdistinct.tokens htoken

theorem Alike.purge {now : Timestamp} (h : Alike (.change (.purgeSessions now) :: events) s t)
    (hsteady : Steady (.change (.purgeSessions now) :: events)) :
    Alike events ((Change.purgeSessions now).after s) t where
  sound := ⟨after_sound (.change (.purgeSessions now)) h.sound.1, h.sound.2⟩
  rest := h.rest
  live := fun later hlater session hlive => by
    have hforward := hsteady.forward
    rw [List.filterMap_cons_some (show time? (.change (.purgeSessions now)) = some now from rfl),
      List.pairwise_cons] at hforward
    have hafter : later ∈ (.change (.purgeSessions now) :: events).filterMap time? :=
      List.mem_cons_of_mem now hlater
    have hbefore := Store.isLive_antitone (hsteady.years now List.mem_cons_self)
      (hsteady.years later hafter) (isNoLater_seconds (hforward.1 later hlater)) hlive
    rw [Store.isLive_eq] at hbefore
    have hmem : session ∈ ((Change.purgeSessions now).after s).sessions ↔ session ∈ s.sessions := by
      show session ∈ s.sessions.filter _ ↔ _
      rw [List.mem_filter, and_iff_left hbefore]
    rw [hmem, h.live later hafter session hlive]
  free_id := fun id hid session hsession =>
    h.free_id id hid session (hsession.imp_left fun hmem => (List.mem_filter.1 hmem).1)
  free_token := fun token htoken session hsession =>
    h.free_token token htoken session (hsession.imp_left fun hmem => (List.mem_filter.1 hmem).1)

theorem callers_sparing {fewer events : List Event} (h : Sparing fewer events)
    (hsteady : Steady events) (hdistinct : Distinct events)
    (halike : Alike events s t) : callers fewer t = callers events s := by
  induction h generalizing s t with
  | nil => rfl
  | @keep fewer events event _ ih =>
      have hcallers := ih hsteady.tail hdistinct.tail (halike.after hdistinct)
      cases event with
      | change c => exact hcallers
      | attempt x => exact congrArg₂ List.cons halike.callerIn_eq.symm hcallers
  | drop now _ ih => exact ih hsteady.tail hdistinct.tail (halike.purge hsteady)

theorem alike_refl (events : List Event) (hs : s.Sound) (hnone : s.sessions = []) :
    Alike events s s where
  sound := ⟨hs, hs⟩
  rest := rfl
  live := fun _ _ _ _ => Iff.rfl
  free_id := fun id _ session hsession => by simp [hnone] at hsession
  free_token := fun token _ session hsession => by simp [hnone] at hsession

/-- The life of a session. In every run from a fresh database, under a clock that never goes back, a
token stands for a user exactly if a session of the user was created under it whose hours have not
passed yet, and the user has not been deleted since. Who makes a request with it is the user as
stored at that time, with the rights of that time. Some of the purges can be left out, or all of
them, and every request still finds the same caller. -/
theorem sessions_last {events : List Event} (hsteady : Steady events)
    (hdistinct : Distinct events) :
    (∀ before x rest token, events = before ++ .attempt x :: rest →
      x.request.token? x.site.cookieName = some token →
        (∀ userId, StandsFor (steps before Database.fresh.store) token userId x.now →
          ∃ user, (run before Database.fresh.store).users.row? userId = some user ∧
            x.caller?.outcome (run before Database.fresh.store) =
              (.ok (some (.ofUser user)), run before Database.fresh.store)) ∧
        ((∀ userId, ¬ StandsFor (steps before Database.fresh.store) token userId x.now) →
          x.caller?.outcome (run before Database.fresh.store) =
            (.ok none, run before Database.fresh.store))) ∧
    ∀ fewer, Sparing fewer events →
      callers fewer Database.fresh.store = callers events Database.fresh.store := by
  have hnone : Database.fresh.store.sessions = [] := by rw [Database.fresh_store]
  refine ⟨?_, fun fewer hfewer => callers_sparing hfewer hsteady hdistinct
    (alike_refl events Database.sound_fresh hnone)⟩
  rintro before x rest token rfl htoken
  simp only [Api.Exchange.outcome_caller?]
  obtain ⟨hstands, hnever⟩ := callerIn_run Database.sound_fresh hnone hsteady htoken
  refine ⟨fun userId huser => ?_, fun hnobody => by rw [hnever hnobody]⟩
  obtain ⟨user, hrow, hcaller⟩ := hstands userId huser
  exact ⟨user, hrow, by rw [hcaller]⟩

end Event

namespace Sample

def visit (second : Int) : Api.Exchange :=
  request second "x" .get "/api/users/me" ""

def hour : List Event :=
  [.change (.saveUser admin), .change (.createSession "session" "token" admin.id 1 (.ofSeconds 0)),
    .attempt (visit 3599), .change (.purgeSessions (.ofSeconds 3600)), .attempt (visit 3600)]

end Sample

/-- In the last second of the hour the token stands for the admin. The purge after it could have
been left out. -/
theorem Event.sessions_last_of_hour :
    (∃ user, (run (Sample.hour.take 2) Database.fresh.store).users.row? "u1" = some user ∧
      (Sample.visit 3599).caller?.outcome (run (Sample.hour.take 2) Database.fresh.store) =
        (.ok (some (.ofUser user)), run (Sample.hour.take 2) Database.fresh.store)) ∧
    callers (Sample.hour.eraseIdx 3) Database.fresh.store =
      callers Sample.hour Database.fresh.store := by
  obtain ⟨hstands, hpurges⟩ := @sessions_last Sample.hour
    ⟨by decide +kernel, by decide +kernel⟩ ⟨by decide +kernel, by decide +kernel⟩
  refine ⟨?_, hpurges _ (.keep _ (.keep _ (.keep _ (.drop _ (.keep _ .nil)))))⟩
  have htoken := hstands (Sample.hour.take 2) (Sample.visit 3599) (Sample.hour.drop 3) "token" rfl
    (by decide +kernel)
  have hcreates : Creates (Event.run [.change (.saveUser Sample.admin)] Database.fresh.store,
      .change (.createSession "session" "token" "u1" 1 (.ofSeconds 0))) "session" "token" "u1" 1
      (.ofSeconds 0) := ⟨rfl, _, rfl⟩
  exact htoken.1 "u1" ⟨[_], _, [], rfl, ⟨_, 1, .ofSeconds 0, hcreates, by decide⟩, by simp⟩

end Gazette
