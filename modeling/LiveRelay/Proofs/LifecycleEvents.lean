import LiveRelay.Proofs.SessionEnd
import LiveRelay.Proofs.Standing

/-!
# Beginnings and ends that are told

What has been told of a session and a path is weighed against what the ledger
still has open for them.  Every beginning is told.  An end is told when the
stream of the session gives up what it does, and the register has it then.

So nothing is told of the end of a publication that was lost, and nothing of the
end of a play whose stream was over before the play was given up.  At the end of
a session these are the beginnings that have no end.
-/

namespace LiveRelay

/-- A count over a range in which one place drops out. -/
theorem countP_range_succ_of_drop {before after : Nat → Bool} {place length : Nat}
    (hplace : place < length) (hbefore : before place = true) (hafter : after place = false)
    (hothers : ∀ other, other ≠ place → after other = before other) :
    (List.range length).countP before = (List.range length).countP after + 1 := by
  induction length with
  | zero => exact absurd hplace (Nat.not_lt_zero place)
  | succ length ih =>
      rw [List.range_succ, List.countP_append, List.countP_append]
      by_cases hlast : place = length
      · subst hlast
        have hsame : (List.range place).countP after = (List.range place).countP before := by
          refine List.countP_congr fun other hother => ?_
          rw [hothers other (Nat.ne_of_lt (List.mem_range.mp hother))]
        simp [hsame, hbefore, hafter]
      · have hrest := ih (by omega)
        have hsame := hothers length (Ne.symm hlast)
        simp only [List.countP_singleton, hsame]
        omega

namespace Register

/-- A subscription is on the list of the publication at a place, which has the
path. -/
def Seats (register : Register) (place subscription : Nat) (path : StreamPath) : Prop :=
  ∃ record, register.publications[place]? = some record ∧
    subscription ∈ record.subscribers ∧ record.path = path

def isListed (register : Register) (subscription : Nat) : Bool :=
  register.publications.any (subscription ∈ ·.subscribers)

/-- The session that publishes a path. -/
def publisher? (register : Register) (path : StreamPath) : Option Nat :=
  (register.directory.get? path).bind fun place =>
    register.publications[place]?.map PublicationRecord.session

variable {register : Register} {owned : List (Nat × StreamMode)} {place subscription : Nat}
  {path : StreamPath}

theorem isListed_iff (register : Register) (subscription : Nat) :
    register.isListed subscription = true ↔
      ∃ place path, register.Seats place subscription path := by
  simp only [isListed, List.any_eq_true, decide_eq_true_eq, Seats]
  constructor
  · rintro ⟨record, hrecord, hmember⟩
    obtain ⟨place, hplace⟩ := List.getElem?_of_mem hrecord
    exact ⟨place, record.path, record, hplace, hmember, rfl⟩
  · rintro ⟨place, path, record, hplace, hmember, -⟩
    exact ⟨record, List.mem_of_getElem? hplace, hmember⟩

theorem isListed_iff_lists {session : Nat}
    (hsession : register.subscriptions[subscription]? = some session) :
    register.isListed subscription = true ↔
      ∃ place, register.Lists session (.playing place subscription) := by
  rw [isListed_iff]
  constructor
  · rintro ⟨place, path, record, hrecord, hmember, -⟩
    exact ⟨place, record, hrecord, hmember, hsession⟩
  · rintro ⟨place, record, hrecord, hmember, -⟩
    exact ⟨place, record.path, record, hrecord, hmember, rfl⟩

/-! ## Lists of subscribers -/

theorem seats_modifySubscribers (place : Nat) (change : List Nat → List Nat)
    (other subscription : Nat) (path : StreamPath) :
    (register.modifySubscribers place change).Seats other subscription path ↔
      ∃ record, register.publications[other]? = some record ∧
        subscription ∈ (if place = other then change record.subscribers else record.subscribers) ∧
        record.path = path := by
  unfold Seats
  rw [exists_modifySubscribers]
  by_cases hplace : place = other
  · simp only [if_pos hplace]
  · simp only [if_neg hplace]

theorem seats_publish (path : StreamPath) (session other subscription : Nat)
    (found : StreamPath) :
    (register.publish path session).Seats other subscription found ↔
      register.Seats other subscription found := by
  unfold Seats
  rw [getElem?_publish]
  by_cases hlength : other = register.publications.length
  · subst hlength
    simp
  · rw [if_neg hlength]

theorem seats_subscribe {record : PublicationRecord}
    (hrecord : register.publications[place]? = some record) (session other subscription : Nat)
    (found : StreamPath) :
    (register.subscribe place session).Seats other subscription found ↔
      register.Seats other subscription found ∨
        other = place ∧ subscription = register.subscriptions.length ∧ found = record.path := by
  unfold subscribe
  rw [seats_modifySubscribers]
  by_cases hother : place = other
  · subst hother
    simp only [if_true, Seats, hrecord, Option.some.injEq, exists_eq_left', List.mem_append,
      List.mem_singleton, true_and]
    constructor
    · rintro ⟨hold | hnew, hpath⟩
      · exact .inl ⟨hold, hpath⟩
      · exact .inr ⟨hnew, hpath.symm⟩
    · rintro (⟨hold, hpath⟩ | ⟨hnew, hpath⟩)
      · exact ⟨.inl hold, hpath⟩
      · exact ⟨.inr hnew, hpath.symm⟩
  · simp only [if_neg hother, Ne.symm hother, false_and, or_false]
    exact Iff.rfl

theorem seats_unsubscribe (place subscription other played : Nat) (path : StreamPath) :
    (register.unsubscribe place subscription).Seats other played path ↔
      register.Seats other played path ∧ ¬(other = place ∧ played = subscription) := by
  unfold unsubscribe
  rw [seats_modifySubscribers]
  unfold Seats
  by_cases hother : place = other
  · subst hother
    simp only [if_true, List.mem_filter, decide_eq_true_eq, true_and]
    constructor
    · rintro ⟨record, hrecord, ⟨hmember, hplayed⟩, hpath⟩
      exact ⟨⟨record, hrecord, hmember, hpath⟩, hplayed⟩
    · rintro ⟨⟨record, hrecord, hmember, hpath⟩, hplayed⟩
      exact ⟨record, hrecord, ⟨hmember, hplayed⟩, hpath⟩
  · simp [hother, Ne.symm hother]

theorem seats_unpublish {record : PublicationRecord}
    (hrecord : register.publications[place]? = some record)
    (hlisted : register.directory.get? record.path = some place) (other subscription : Nat)
    (path : StreamPath) :
    (register.unpublish place).Seats other subscription path ↔
      register.Seats other subscription path ∧ other ≠ place := by
  rw [unpublish_of_current hrecord hlisted, seats_modifySubscribers]
  by_cases hother : place = other
  · simp [hother]
  · simp only [if_neg hother, Ne.symm hother, Seats, ne_eq, not_false_eq_true, and_true]

/-! ## Publishers -/

theorem publisher?_modifySubscribers (place : Nat) (change : List Nat → List Nat)
    (path : StreamPath) :
    (register.modifySubscribers place change).publisher? path = register.publisher? path := by
  have hsession (other : Nat) :
      ((register.modifySubscribers place change).publications[other]?).map
          PublicationRecord.session =
        register.publications[other]?.map PublicationRecord.session := by
    have hmapped : (register.modifySubscribers place change).publications.map
        PublicationRecord.session = register.publications.map PublicationRecord.session := by
      apply map_modify_of_unseen
      exact fun _ => rfl
    rw [← List.getElem?_map, ← List.getElem?_map, hmapped]
  simp only [publisher?, hsession]
  rfl

theorem Accounted.publisher?_publish (haccounted : register.Accounted owned)
    (path : StreamPath) (session : Nat) (found : StreamPath) :
    (register.publish path session).publisher? found =
      if path = found then some session else register.publisher? found := by
  unfold publisher?
  have hfound : (register.publish path session).directory.get? found =
      if path = found then some register.publications.length
      else register.directory.get? found :=
    StreamDirectory.get?_put _ _ _ _
  rw [hfound]
  split
  · simp [getElem?_publish]
  · cases hplace : register.directory.get? found with
    | none => rfl
    | some place =>
        obtain ⟨record, hrecord, -⟩ := haccounted.found found place hplace
        have hlt := (List.getElem?_eq_some_iff.mp hrecord).1
        simp only [Option.bind_some, getElem?_publish]
        rw [if_neg (Nat.ne_of_lt hlt)]

theorem publisher?_unpublish {record : PublicationRecord}
    (hrecord : register.publications[place]? = some record)
    (hlisted : register.directory.get? record.path = some place) (found : StreamPath) :
    (register.unpublish place).publisher? found =
      if record.path = found then none else register.publisher? found := by
  rw [unpublish_of_current hrecord hlisted, publisher?_modifySubscribers]
  simp only [publisher?, StreamDirectory.get?_erase]
  split <;> rfl

end Register

/-! ## What is open -/

namespace Ledger

/-- A play of the path by the session that is on a list, or has ended with its
stream. -/
def isOpen (ledger : Ledger) (session : Nat) (path : StreamPath) (place : Nat) : Bool :=
  ledger.plays[place]?.any fun play =>
    play.session = session && play.path = path &&
      (play.hasEnded || ledger.register.isListed place)

def openPlays (ledger : Ledger) (session : Nat) (path : StreamPath) : Nat :=
  (List.range ledger.plays.length).countP (ledger.isOpen session path)

/-- One if the session publishes the path. -/
def openPublications (ledger : Ledger) (session : Nat) (path : StreamPath) : Nat :=
  if ledger.register.publisher? path = some session then 1 else 0

/-- How often a change has been told of a path to a session. -/
def tally (ledger : Ledger) (session : Nat) (change : StreamChange) (path : StreamPath) : Nat :=
  ledger.told.count (session, change, path)

/-- The lists of subscribers and the plays agree. -/
structure Seated (ledger : Ledger) : Prop where
  sessions : ledger.register.subscriptions = ledger.plays.map Play.session
  playing : ∀ place subscription path, ledger.register.Seats place subscription path →
    ∃ play, ledger.plays[subscription]? = some play ∧ play.path = path ∧ play.hasEnded = false
  unique : ∀ place other subscription path found,
    ledger.register.Seats place subscription path →
      ledger.register.Seats other subscription found → place = other

/-- What has begun has ended, or is open. -/
structure Balanced (ledger : Ledger) : Prop where
  seated : ledger.Seated
  published : ∀ session path, ledger.tally session .published path =
    ledger.tally session .unpublished path + ledger.openPublications session path
  subscribed : ∀ session path, ledger.tally session .subscribed path =
    ledger.tally session .unsubscribed path + ledger.openPlays session path

variable {ledger after : Ledger} {owned : List (Nat × StreamMode)} {session place : Nat}
  {path : StreamPath}

theorem isOpen_iff (ledger : Ledger) (session : Nat) (path : StreamPath) (place : Nat) :
    ledger.isOpen session path place = true ↔
      ∃ play, ledger.plays[place]? = some play ∧ (play.session = session ∧ play.path = path) ∧
        (play.hasEnded = true ∨ ledger.register.isListed place = true) := by
  unfold isOpen
  cases ledger.plays[place]? with
  | none => simp
  | some play => simp

theorem isOpen_congr {subscription : Nat}
    (hplay : after.plays[subscription]? = ledger.plays[subscription]?)
    (hlisted : after.register.isListed subscription = ledger.register.isListed subscription)
    (session : Nat) (path : StreamPath) :
    after.isOpen session path subscription = ledger.isOpen session path subscription := by
  simp only [isOpen, hplay, hlisted]

theorem openPlays_congr (hlength : after.plays.length = ledger.plays.length)
    (hopen : ∀ subscription,
      after.isOpen session path subscription = ledger.isOpen session path subscription) :
    after.openPlays session path = ledger.openPlays session path := by
  rw [openPlays, openPlays, hlength]
  exact List.countP_congr fun subscription _ => by rw [hopen]

theorem openPublications_congr
    (hpublisher : after.register.publisher? path = ledger.register.publisher? path)
    (session : Nat) :
    after.openPublications session path = ledger.openPublications session path := by
  simp only [openPublications, hpublisher]

theorem tally_append {change : StreamChange}
    (htold : after.told = ledger.told ++ [(session, change, path)]) (other : Nat)
    (sought : StreamChange) (found : StreamPath) :
    after.tally other sought found =
      ledger.tally other sought found +
        if change = sought ∧ session = other ∧ path = found then 1 else 0 := by
  rw [tally, tally, htold, List.count_append, List.count_singleton]
  simp only [beq_iff_eq, Prod.mk.injEq, and_left_comm]

/-- A beginning that is told is open, and an end that is told was. -/
theorem Balanced.append (hbalanced : ledger.Balanced) (hseated : after.Seated)
    {change : StreamChange} (htold : after.told = ledger.told ++ [(session, change, path)])
    (hpublications : ∀ other found,
      after.openPublications other found +
          (if change = .unpublished ∧ session = other ∧ path = found then 1 else 0) =
        ledger.openPublications other found +
          if change = .published ∧ session = other ∧ path = found then 1 else 0)
    (hplays : ∀ other found,
      after.openPlays other found +
          (if change = .unsubscribed ∧ session = other ∧ path = found then 1 else 0) =
        ledger.openPlays other found +
          if change = .subscribed ∧ session = other ∧ path = found then 1 else 0) :
    after.Balanced where
  seated := hseated
  published other found := by
    have hbefore := hbalanced.published other found
    have hopen := hpublications other found
    rw [tally_append htold, tally_append htold]
    omega
  subscribed other found := by
    have hbefore := hbalanced.subscribed other found
    have hopen := hplays other found
    rw [tally_append htold, tally_append htold]
    omega

theorem Seated.lt_of_seats (hseated : ledger.Seated) {subscription : Nat}
    (hseat : ledger.register.Seats place subscription path) :
    subscription < ledger.plays.length := by
  obtain ⟨play, hplay, -⟩ := hseated.playing place subscription path hseat
  exact (List.getElem?_eq_some_iff.mp hplay).1

/-! ## Publishing -/

section

variable (hregister : after.register = ledger.register.publish path session)
  (hplays : after.plays = ledger.plays)

include hregister hplays

theorem Seated.publish (hseated : ledger.Seated) : after.Seated where
  sessions := by
    rw [hregister, hplays]
    exact hseated.sessions
  playing other subscription found hseat := by
    rw [hregister, Register.seats_publish] at hseat
    rw [hplays]
    exact hseated.playing other subscription found hseat
  unique first second subscription found others hfirst hsecond := by
    rw [hregister, Register.seats_publish] at hfirst hsecond
    exact hseated.unique first second subscription found others hfirst hsecond

theorem openPlays_publish (other : Nat) (found : StreamPath) :
    after.openPlays other found = ledger.openPlays other found := by
  refine openPlays_congr (congrArg List.length hplays) fun subscription => ?_
  refine isOpen_congr (by rw [hplays]) ?_ other found
  rw [Bool.eq_iff_iff, Register.isListed_iff, Register.isListed_iff, hregister]
  simp only [Register.seats_publish]

omit hplays in
theorem openPublications_publish (haccounted : ledger.register.Accounted owned)
    (hfree : ledger.register.directory.get? path = none) (other : Nat) (found : StreamPath) :
    after.openPublications other found =
      ledger.openPublications other found + if session = other ∧ path = found then 1 else 0 := by
  have hnone : ledger.register.publisher? path = none := by
    simp [Register.publisher?, hfree]
  simp only [openPublications, hregister, haccounted.publisher?_publish]
  by_cases hpath : path = found
  · subst hpath
    simp [hnone]
  · simp [hpath]

end

theorem Balanced.publish (hbalanced : ledger.Balanced)
    (haccounted : ledger.register.Accounted owned) (session : Nat)
    (hfree : ledger.register.directory.get? path = none) (arguments : StreamArguments) :
    ({ ledger with register := ledger.register.publish path session }.tell session
      (.published path arguments)).Balanced := by
  refine hbalanced.append (hbalanced.seated.publish rfl rfl) rfl ?_ ?_
  · intro other found
    simp only [reduceCtorEq, false_and, if_false, Nat.add_zero, true_and]
    exact openPublications_publish (by rfl) haccounted hfree other found
  · intro other found
    simp only [reduceCtorEq, false_and, if_false, Nat.add_zero]
    exact openPlays_publish (by rfl) (by rfl) other found

section

variable {record : PublicationRecord}
  (hrecord : ledger.register.publications[place]? = some record)
  (hlisted : ledger.register.directory.get? record.path = some place)
  (hregister : after.register = ledger.register.unpublish place)

include hrecord hlisted hregister

theorem Seated.unpublish (hseated : ledger.Seated)
    (hplays : after.plays = closePlays record.subscribers ledger.plays) : after.Seated where
  sessions := by
    rw [hregister, hplays, Register.unpublish_of_current hrecord hlisted,
      map_closePlays fun _ => rfl]
    exact hseated.sessions
  playing other subscription found hseat := by
    rw [hregister, Register.seats_unpublish hrecord hlisted] at hseat
    obtain ⟨hbefore, hother⟩ := hseat
    have hstays : subscription ∉ record.subscribers := fun hmember =>
      hother (hseated.unique other place subscription found record.path hbefore
        ⟨record, hrecord, hmember, rfl⟩)
    obtain ⟨play, hplay, hpath, hrunning⟩ := hseated.playing other subscription found hbefore
    refine ⟨play, ?_, hpath, hrunning⟩
    rw [hplays, getElem?_closePlays, hplay]
    simp [hstays]
  unique first second subscription found others hfirst hsecond := by
    rw [hregister, Register.seats_unpublish hrecord hlisted] at hfirst hsecond
    exact hseated.unique first second subscription found others hfirst.1 hsecond.1

/-- The plays that were on the list have ended now. -/
theorem Seated.openPlays_unpublish (hseated : ledger.Seated)
    (hplays : after.plays = closePlays record.subscribers ledger.plays) (other : Nat)
    (found : StreamPath) :
    after.openPlays other found = ledger.openPlays other found := by
  have hlength : after.plays.length = ledger.plays.length := by
    rw [hplays, length_closePlays]
  refine openPlays_congr hlength fun subscription => ?_
  by_cases hmember : subscription ∈ record.subscribers
  · have hseat : ledger.register.Seats place subscription record.path :=
      ⟨record, hrecord, hmember, rfl⟩
    have hwas := (Register.isListed_iff ledger.register subscription).mpr ⟨_, _, hseat⟩
    obtain ⟨play, hplay, -⟩ := hseated.playing place subscription record.path hseat
    simp [isOpen, hplays, getElem?_closePlays, hplay, hmember, hwas, Play.close]
  · refine isOpen_congr ?_ ?_ other found
    · rw [hplays, getElem?_closePlays]
      simp [hmember]
    · have hstays (published : Nat) (sought : StreamPath)
          (hseat : ledger.register.Seats published subscription sought) : published ≠ place := by
        rintro rfl
        obtain ⟨left, hleft, hwas, -⟩ := hseat
        rw [hrecord] at hleft
        exact hmember (Option.some.inj hleft ▸ hwas)
      rw [Bool.eq_iff_iff, Register.isListed_iff, Register.isListed_iff, hregister]
      simp only [Register.seats_unpublish hrecord hlisted]
      exact exists_congr fun published => exists_congr fun sought =>
        and_iff_left_of_imp (hstays published sought)

theorem openPublications_unpublish (hsession : record.session = session) (other : Nat)
    (found : StreamPath) :
    after.openPublications other found +
        (if session = other ∧ record.path = found then 1 else 0) =
      ledger.openPublications other found := by
  have hpublisher : ledger.register.publisher? record.path = some session := by
    simp [Register.publisher?, hlisted, hrecord, hsession]
  simp only [openPublications, hregister, Register.publisher?_unpublish hrecord hlisted]
  by_cases hpath : record.path = found
  · subst hpath
    simp [hpublisher]
  · simp [hpath]

end

/-- The stream of a publication is over. -/
theorem Balanced.stopPublishing (hbalanced : ledger.Balanced)
    (haccounted : ledger.register.Accounted ((session, .publishing place) :: owned)) :
    (ledger.stop session (.publishing place)).Balanced := by
  obtain ⟨record, hrecord, hsession, hlisted⟩ :=
    (haccounted.lists_iff session (.publishing place)).mpr ⟨List.mem_cons_self, trivial⟩
  rw [stop_publishing_of_listed session hrecord hlisted]
  refine hbalanced.append (hbalanced.seated.unpublish hrecord hlisted rfl rfl) rfl ?_ ?_
  · intro other found
    simp only [reduceCtorEq, false_and, if_false, Nat.add_zero, true_and]
    exact openPublications_unpublish hrecord hlisted (by rfl) hsession other found
  · intro other found
    simp only [reduceCtorEq, false_and, if_false, Nat.add_zero]
    exact hbalanced.seated.openPlays_unpublish hrecord hlisted (by rfl) (by rfl) other found

/-! ## Playing -/

section

variable (hregister : after.register = ledger.register.subscribe place session)
  (hplays : after.plays = ledger.plays ++ [⟨session, path, false⟩])
  (hfound : ∃ record, ledger.register.publications[place]? = some record ∧ record.path = path)

include hregister hfound

theorem Seated.seats_subscribe (hseated : ledger.Seated) (other subscription : Nat)
    (found : StreamPath) :
    after.register.Seats other subscription found ↔
      ledger.register.Seats other subscription found ∨
        other = place ∧ subscription = ledger.plays.length ∧ found = path := by
  obtain ⟨record, hrecord, hpath⟩ := hfound
  have hlength : ledger.register.subscriptions.length = ledger.plays.length := by
    rw [hseated.sessions, List.length_map]
  rw [hregister, Register.seats_subscribe hrecord, hlength, hpath]

include hplays

theorem Seated.subscribe (hseated : ledger.Seated) : after.Seated where
  sessions := by
    rw [hregister, hplays, List.map_append]
    show ledger.register.subscriptions ++ [session] = _
    rw [hseated.sessions]
    rfl
  playing other subscription found hseat := by
    rw [hplays]
    rcases (hseated.seats_subscribe hregister hfound other subscription found).mp
      hseat with hold | ⟨rfl, rfl, rfl⟩
    · rw [List.getElem?_append_left (hseated.lt_of_seats hold)]
      exact hseated.playing other subscription found hold
    · exact ⟨⟨session, _, false⟩, List.getElem?_concat_length, rfl, rfl⟩
  unique first second subscription found others hfirst hsecond := by
    rw [hseated.seats_subscribe hregister hfound] at hfirst hsecond
    rcases hfirst with hold | ⟨hnew, hlast, -⟩
    · have hlt := hseated.lt_of_seats hold
      rcases hsecond with holder | ⟨-, hlast, -⟩
      · exact hseated.unique first second subscription found others hold holder
      · exact absurd hlt (hlast ▸ Nat.lt_irrefl _)
    · rcases hsecond with holder | ⟨hnewer, -⟩
      · exact absurd (hseated.lt_of_seats holder) (hlast ▸ Nat.lt_irrefl _)
      · exact hnew.trans hnewer.symm

theorem Seated.isOpen_last (hseated : ledger.Seated) (other : Nat) (found : StreamPath) :
    after.isOpen other found ledger.plays.length = decide (session = other ∧ path = found) := by
  have hseats := hseated.seats_subscribe hregister hfound
  have hlisted : after.register.isListed ledger.plays.length = true :=
    (Register.isListed_iff _ _).mpr
      ⟨place, path, (hseats place _ path).mpr (.inr ⟨rfl, rfl, rfl⟩)⟩
  have hplay : after.plays[ledger.plays.length]? = some ⟨session, path, false⟩ := by
    rw [hplays]
    exact List.getElem?_concat_length
  simp [isOpen, hplay, hlisted]

theorem Seated.openPlays_subscribe (hseated : ledger.Seated) (other : Nat)
    (found : StreamPath) :
    after.openPlays other found =
      ledger.openPlays other found + if session = other ∧ path = found then 1 else 0 := by
  have hseats := hseated.seats_subscribe hregister hfound
  have hlength : after.plays.length = ledger.plays.length + 1 := by
    rw [hplays]
    exact List.length_append
  have hlast := hseated.isOpen_last hregister hplays hfound other found
  have hothers : (List.range ledger.plays.length).countP (after.isOpen other found) =
      (List.range ledger.plays.length).countP (ledger.isOpen other found) := by
    refine List.countP_congr fun subscription hmem => ?_
    have hlt := List.mem_range.mp hmem
    rw [isOpen_congr]
    · rw [hplays]
      exact List.getElem?_append_left hlt
    · rw [Bool.eq_iff_iff, Register.isListed_iff, Register.isListed_iff]
      simp only [hseats, Nat.ne_of_lt hlt, false_and, and_false, or_false]
  simp only [openPlays, hlength, List.range_succ, List.countP_append, hothers,
    List.countP_singleton, hlast, decide_eq_true_eq]

end

theorem Balanced.play (hbalanced : ledger.Balanced)
    (haccounted : ledger.register.Accounted owned) (session : Nat)
    (hplace : ledger.register.directory.get? path = some place) (arguments : StreamArguments) :
    (tell
      { ledger with
        register := ledger.register.subscribe place session
        plays := ledger.plays ++ [⟨session, path, false⟩] }
      session (.subscribed path arguments)).Balanced := by
  have hfound := haccounted.found path place hplace
  refine hbalanced.append (hbalanced.seated.subscribe rfl rfl hfound) rfl ?_ ?_
  · intro other found
    simp only [reduceCtorEq, false_and, if_false, Nat.add_zero]
    refine openPublications_congr ?_ other
    exact Register.publisher?_modifySubscribers place _ found
  · intro other found
    simp only [reduceCtorEq, false_and, if_false, Nat.add_zero, true_and]
    exact hbalanced.seated.openPlays_subscribe (by rfl) (by rfl) hfound other found

section

variable {subscription : Nat}
  (hregister : after.register = ledger.register.unsubscribe place subscription)
  (hplays : after.plays = ledger.plays)

include hregister hplays

theorem Seated.unsubscribe (hseated : ledger.Seated) : after.Seated where
  sessions := by
    rw [hregister, hplays]
    exact hseated.sessions
  playing other played found hseat := by
    rw [hregister, Register.seats_unsubscribe] at hseat
    rw [hplays]
    exact hseated.playing other played found hseat.1
  unique first second played found others hfirst hsecond := by
    rw [hregister, Register.seats_unsubscribe] at hfirst hsecond
    exact hseated.unique first second played found others hfirst.1 hsecond.1

omit hplays in
theorem Seated.isListed_unsubscribe (hseated : ledger.Seated)
    (hseat : ledger.register.Seats place subscription path) :
    after.register.isListed subscription = false := by
  refine eq_false_of_ne_true fun hlisted => ?_
  obtain ⟨other, found, hstill⟩ := (Register.isListed_iff _ _).mp hlisted
  rw [hregister, Register.seats_unsubscribe] at hstill
  exact hstill.2 ⟨hseated.unique other place subscription found path hstill.1 hseat, rfl⟩

theorem isOpen_unsubscribe_of_ne {played : Nat} (hplayed : played ≠ subscription)
    (other : Nat) (found : StreamPath) :
    after.isOpen other found played = ledger.isOpen other found played := by
  refine isOpen_congr (by rw [hplays]) ?_ other found
  rw [Bool.eq_iff_iff, Register.isListed_iff, Register.isListed_iff, hregister]
  simp only [Register.seats_unsubscribe, hplayed, and_false, not_false_eq_true, and_true]

theorem Seated.openPlays_unsubscribe (hseated : ledger.Seated) {play : Play}
    (hseat : ledger.register.Seats place subscription path)
    (hplay : ledger.plays[subscription]? = some play) (hpath : play.path = path)
    (hrunning : play.hasEnded = false) (other : Nat) (found : StreamPath) :
    after.openPlays other found +
        (if play.session = other ∧ path = found then 1 else 0) =
      ledger.openPlays other found := by
  have hlisted : ledger.register.isListed subscription = true :=
    (Register.isListed_iff _ _).mpr ⟨place, path, hseat⟩
  have hleft := hseated.isListed_unsubscribe hregister hseat
  have hothers (played : Nat) (hplayed : played ≠ subscription) :
      after.isOpen other found played = ledger.isOpen other found played :=
    isOpen_unsubscribe_of_ne hregister hplays hplayed other found
  split
  · rename_i hsame
    rw [openPlays, openPlays, hplays]
    refine (countP_range_succ_of_drop (List.getElem?_eq_some_iff.mp hplay).1 ?_ ?_ hothers).symm
    · simp [isOpen, hplay, hpath, hsame, hlisted]
    · simp [isOpen, hplays, hplay, hrunning, hleft]
  · rename_i hdiffer
    have hnot (state : Ledger) (hsame : state.plays = ledger.plays) :
        state.isOpen other found subscription = false := by
      refine eq_false_of_ne_true fun hopen => ?_
      obtain ⟨sought, hsought, hboth, -⟩ := (isOpen_iff _ _ _ _).mp hopen
      rw [hsame, hplay] at hsought
      obtain rfl := Option.some.inj hsought
      exact hdiffer (hpath ▸ hboth)
    refine openPlays_congr (congrArg List.length hplays) fun played => ?_
    by_cases hplayed : played = subscription
    · rw [hplayed, hnot after hplays, hnot ledger rfl]
    · exact hothers played hplayed

end

theorem Balanced.stopPlaying (hbalanced : ledger.Balanced) {subscription : Nat}
    (haccounted : ledger.register.Accounted ((session, .playing place subscription) :: owned)) :
    (ledger.stop session (.playing place subscription)).Balanced := by
  by_cases hgone : ∀ record, ledger.register.publications[place]? = some record →
      subscription ∉ record.subscribers
  · rw [stop_playing_of_unlisted session hgone]
    exact hbalanced
  · simp only [Classical.not_forall, Classical.not_not] at hgone
    obtain ⟨record, hrecord, hmember⟩ := hgone
    have hseat : ledger.register.Seats place subscription record.path :=
      ⟨record, hrecord, hmember, rfl⟩
    obtain ⟨play, hplay, hpath, hrunning⟩ :=
      hbalanced.seated.playing place subscription record.path hseat
    have hsession : play.session = session := by
      refine haccounted.session_of_lists ⟨record, hrecord, hmember, ?_⟩
      rw [hbalanced.seated.sessions, List.getElem?_map, hplay, Option.map_some]
    rw [stop_playing_of_listed session hrecord hmember]
    refine hbalanced.append (hbalanced.seated.unsubscribe rfl rfl) rfl ?_ ?_
    · intro other found
      simp only [reduceCtorEq, false_and, if_false, Nat.add_zero]
      refine openPublications_congr ?_ other
      exact Register.publisher?_modifySubscribers place _ found
    · intro other found
      simp only [reduceCtorEq, false_and, if_false, Nat.add_zero, true_and, ← hsession]
      exact hbalanced.seated.openPlays_unsubscribe (by rfl) (by rfl) hseat hplay hpath hrunning
        other found

/-! ## Steps of a session -/

theorem Balanced.stop (hbalanced : ledger.Balanced) {mode : StreamMode}
    (haccounted : ledger.register.Accounted (mode.owned.map (session, ·) ++ owned)) :
    (ledger.stop session mode).Balanced := by
  cases mode with
  | idle => exact hbalanced
  | publishing place => exact hbalanced.stopPublishing haccounted
  | playing place subscription => exact hbalanced.stopPlaying haccounted

theorem Balanced.stopAll (hbalanced : ledger.Balanced)
    {streams : List (UInt32 × StreamMode)}
    (haccounted : ledger.register.Accounted (Tenure.ownedBy session streams ++ owned)) :
    (streams.foldl (fun ledger (_, mode) => ledger.stop session mode) ledger).Balanced := by
  induction streams generalizing ledger with
  | nil => exact hbalanced
  | cons stream streams ih =>
      obtain ⟨streamId, mode⟩ := stream
      rw [Tenure.ownedBy_cons, List.append_assoc] at haccounted
      refine ih (hbalanced.stop haccounted) ?_
      rw [register_stop]
      exact Tenure.accounted_stop haccounted

end Ledger

namespace Standing

variable {decide : SessionContext → Request → Decision} {command? : Option Command}
  {first last : Standing} {lost : List StreamMode} {others : List (Nat × StreamMode)}

theorem Step.balanced (hbalanced : first.ledger.Balanced)
    (hsettled : first.tenure.Settled others) (hstep : Step decide command? first lost last) :
    last.ledger.Balanced := by
  cases hstep with
  | connected => exact hbalanced
  | allocated => exact hbalanced
  | closed streamId => exact hbalanced.stop (hsettled.accountedMode streamId)
  | deleted streamId => exact hbalanced.stop (hsettled.accountedMode streamId)
  | published streamId parameters requested path arguments _ _ _ _ _ hfree =>
      exact hbalanced.publish hsettled.accounted first.context.sessionId hfree arguments
  | played streamId parameters requested path arguments place _ _ _ _ _ hplace =>
      exact hbalanced.play hsettled.accounted first.context.sessionId hplace arguments

theorem Steps.balanced (hbalanced : first.ledger.Balanced)
    (hsettled : first.tenure.Settled others) (hsteps : Steps decide command? first lost last) :
    last.ledger.Balanced := by
  induction hsteps generalizing others with
  | refl => exact hbalanced
  | head hstep _ ih =>
      obtain ⟨-, hnext⟩ := hsettled.afterSteps hstep.tenure
      exact ih (hstep.balanced hbalanced hsettled) hnext

end Standing

/-! ## Runs of a server -/

namespace Server

variable {server : Server} {lost : List (Nat × StreamMode)}

theorem balanced_endSessionIn (hbalanced : server.relay.ledger.Balanced)
    (hsettled : server.Settled lost) (order : TeardownOrder) (number : Nat) :
    (server.endSessionIn order number).2.relay.ledger.Balanced := by
  unfold endSessionIn
  cases hconnection : server.connection? number with
  | none => exact hbalanced
  | some connection =>
      obtain ⟨-, htenure⟩ := hsettled.tenure hconnection
      obtain ⟨found, -, rfl⟩ := Option.map_eq_some_iff.mp hconnection
      show (Connection.finish server.policy order _).2.relay.ledger.Balanced
      rw [Connection.ledger_finish]
      exact hbalanced.stopAll (htenure.accountedArranged order)

theorem balanced_received (hbalanced : server.relay.ledger.Balanced)
    (hsettled : server.Settled lost) {number : Nat} {inbound : Inbound} {arrival : Arrival}
    {order : TeardownOrder} {reading : Connection}
    (hreading : server.reading? number inbound = some reading) :
    (server.step (.received number inbound arrival order)).relay.ledger.Balanced := by
  obtain ⟨connection, hconnection, hsame⟩ := Option.map_eq_some_iff.mp hreading
  have htenured : reading.tenure = connection.tenure := by
    rw [← hsame]
    rfl
  obtain ⟨-, htenure⟩ := hsettled.tenure hconnection
  rw [← htenured] at htenure
  have hledger : reading.standing.ledger.Balanced := by
    obtain ⟨session, -, -, -, -, hrelay⟩ := session_of_reading hreading
    simp only [Connection.standing, hrelay]
    exact hbalanced
  have hafter : (server.keep (reading.receiveArrival server.configuration server.policy
      arrival).2).relay.ledger.Balanced :=
    (reading.standing_receiveArrival server.configuration server.policy arrival).balanced
      hledger htenure
  have hmessage := reading.steps_receiveArrival server.configuration server.policy arrival
  rw [htenured] at hmessage
  rw [step_received hreading]
  split
  · exact balanced_endSessionIn hafter (hsettled.afterSteps hconnection hmessage) order number
  · exact hafter

theorem balanced_step (hbalanced : server.relay.ledger.Balanced)
    (hsettled : server.Settled lost) (event : ServerEvent) :
    (server.step event).relay.ledger.Balanced := by
  cases event with
  | policyChanged policy => exact hbalanced
  | accepted canSendWithoutDelay =>
      simp only [step, ledger_accept]
      exact hbalanced
  | flushed number =>
      simp only [step, ledger_flush]
      exact hbalanced
  | ended number order => exact balanced_endSessionIn hbalanced hsettled order number
  | received number inbound arrival order =>
      cases hreading : server.reading? number inbound with
      | none =>
          simp only [step, receiveArrival, hreading]
          exact hbalanced
      | some reading => exact balanced_received hbalanced hsettled hreading

theorem balanced_run (hbalanced : server.relay.ledger.Balanced) (hsettled : server.Settled lost)
    (events : List ServerEvent) : (server.run events).relay.ledger.Balanced := by
  induction events generalizing server lost with
  | nil => exact hbalanced
  | cons event events ih =>
      exact ih (balanced_step hbalanced hsettled event) (hsettled.afterEvent event)

theorem balanced_ofConfiguration (configuration : ServerConfiguration) (policy : PolicyChain)
    (observers : List Observer) (spread : StreamPath → Nat) :
    (ofConfiguration configuration policy observers spread).relay.ledger.Balanced where
  seated :=
    { sessions := rfl
      playing := fun place subscription path hseat => by
        obtain ⟨record, hrecord, -⟩ := hseat
        cases hrecord
      unique := fun place other subscription path found hseat => by
        obtain ⟨record, hrecord, -⟩ := hseat
        cases hrecord }
  published session path := by
    have hfree : (ofConfiguration configuration policy observers spread).relay.directory.get? path =
        none := StreamDirectory.get?_empty _ _ _
    have hnone : (ofConfiguration configuration policy observers
        spread).relay.ledger.register.publisher? path = none := by
      unfold Register.publisher?
      exact congrArg (Option.bind · _) hfree
    simp only [Ledger.openPublications, hnone]
    rfl
  subscribed session path := rfl

/-! ## At the end of a session -/

theorem publisher?_eq_some_iff (hsettled : server.Settled lost) (session : Nat)
    (path : StreamPath) :
    server.relay.register.publisher? path = some session ↔
      ∃ place, server.relay.register.Lists session (.publishing place) ∧
        server.relay.pathOf place = path := by
  have hpathOf {place : Nat} {record : PublicationRecord}
      (hrecord : server.relay.register.publications[place]? = some record) :
      server.relay.pathOf place = record.path := by
    rw [Relay.getElem?_register] at hrecord
    obtain ⟨publication, hpublication, rfl⟩ := Option.map_eq_some_iff.mp hrecord
    simp [Relay.pathOf, hpublication, Publication.record]
  simp only [Register.publisher?, Option.bind_eq_some_iff, Option.map_eq_some_iff]
  constructor
  · rintro ⟨place, hplace, record, hrecord, hsession⟩
    obtain ⟨other, hother, hpath⟩ := hsettled.accounted.found path place hplace
    obtain rfl : record = other := Option.some.inj (hrecord.symm.trans hother)
    exact ⟨place, ⟨record, hrecord, hsession, hpath ▸ hplace⟩, (hpathOf hrecord).trans hpath⟩
  · rintro ⟨place, ⟨record, hrecord, hsession, hplace⟩, hpath⟩
    rw [hpathOf hrecord] at hpath
    exact ⟨place, hpath ▸ hplace, record, hrecord, hsession⟩

section

variable {session : Nat} (hsettled : server.Settled lost)
  (hgone : session ∉ server.sessions.keys)

include hsettled hgone

theorem openPublications_eq_one_iff (path : StreamPath) :
    server.relay.ledger.openPublications session path = 1 ↔
      ∃ place, (session, .publishing place) ∈ lost ∧ server.relay.pathOf place = path := by
  have hpublisher := publisher?_eq_some_iff hsettled session path
  simp only [hsettled.lists_iff_lost hgone, Register.Matters, and_true] at hpublisher
  rw [← hpublisher]
  show (if server.relay.register.publisher? path = some session then 1 else 0) = 1 ↔ _
  split <;> simp_all

theorem isListed_iff_lost {place : Nat} {subscription : Subscription}
    (hfound : server.relay.subscriptions[place]? = some subscription)
    (hsession : subscription.session = session) :
    server.relay.register.isListed place = true ↔
      ∃ publication, (session, .playing publication place) ∈ lost ∧
        server.relay.IsRegistered publication := by
  have hregistered : server.relay.register.subscriptions[place]? = some session := by
    simp [Relay.register, hfound, hsession]
  rw [Register.isListed_iff_lists hregistered]
  simp only [hsettled.lists_iff_lost hgone, Register.Matters, server.relay.isRegistered_iff]

theorem isOpen_iff_lost (path : StreamPath) (place : Nat) :
    server.relay.ledger.isOpen session path place = true ↔
      ∃ subscription, server.relay.subscriptions[place]? = some subscription ∧
        (subscription.session = session ∧ subscription.path = path) ∧
        (subscription.hasEnded = true ∨
          ∃ publication, (session, .playing publication place) ∈ lost ∧
            server.relay.IsRegistered publication) := by
  rw [Ledger.isOpen_iff]
  simp only [Relay.ledger, Relay.plays, List.getElem?_map, Option.map_eq_some_iff]
  constructor
  · rintro ⟨play, ⟨subscription, hfound, rfl⟩, ⟨hsession, hpath⟩, hopen⟩
    exact ⟨subscription, hfound, ⟨hsession, hpath⟩,
      hopen.imp_right (isListed_iff_lost hsettled hgone hfound hsession).mp⟩
  · rintro ⟨subscription, hfound, ⟨hsession, hpath⟩, hopen⟩
    exact ⟨_, ⟨subscription, hfound, rfl⟩, ⟨hsession, hpath⟩,
      hopen.imp_right (isListed_iff_lost hsettled hgone hfound hsession).mpr⟩

end

/-- Over the life of a session, all that begins ends, but for publications that
are lost, and for plays that are lost or over before they are given up. -/
theorem beginnings_eq_ends_add_open (configuration : ServerConfiguration) (policy : PolicyChain)
    (observers : List Observer) (spread : StreamPath → Nat) (events : List ServerEvent)
    (session : Nat) (order : TeardownOrder) (path : StreamPath) :
    let server := ofConfiguration configuration policy observers spread
    let relay := ((server.run events).endSessionIn order session).2.relay
    (relay.ledger.tally session .published path =
        relay.ledger.tally session .unpublished path +
          relay.ledger.openPublications session path ∧
      (relay.ledger.openPublications session path = 1 ↔
        ∃ place, (session, .publishing place) ∈ server.lost events ∧
          relay.pathOf place = path)) ∧
    relay.ledger.tally session .subscribed path =
        relay.ledger.tally session .unsubscribed path + relay.ledger.openPlays session path ∧
      ∀ place, relay.ledger.isOpen session path place = true ↔
        ∃ subscription, relay.subscriptions[place]? = some subscription ∧
          (subscription.session = session ∧ subscription.path = path) ∧
          (subscription.hasEnded = true ∨
            ∃ publication, (session, .playing publication place) ∈ server.lost events ∧
              relay.IsRegistered publication) := by
  intro server relay
  have hstart := settled_ofConfiguration configuration policy observers spread
  have hrun := hstart.afterRun events
  rw [List.append_nil] at hrun
  have hended := hrun.afterEnd session order
  have hbalanced : relay.ledger.Balanced :=
    balanced_endSessionIn (balanced_run (balanced_ofConfiguration configuration policy observers
      spread) hstart events) hrun order session
  have hgone : session ∉ ((server.run events).endSessionIn order session).2.sessions.keys :=
    notMem_keys_endSessionIn order session
  exact ⟨⟨hbalanced.published session path, openPublications_eq_one_iff hended hgone path⟩,
    hbalanced.subscribed session path, isOpen_iff_lost hended hgone path⟩

/-- A client publishes, another one plays, and the one that publishes leaves. -/
def publisherLeavesFirst : List ServerEvent :=
  let received (session : Nat) (values : List AmfValue) : ServerEvent :=
    .received session {} (commandOf 1 values) .asListed
  [.accepted true, .accepted true,
    received 1 [.text "connect", .number .zero],
    received 1 [.text "publish", .number .zero, .null, .text "demo"],
    received 2 [.text "connect", .number .zero],
    received 2 [.text "play", .number .zero, .null, .text "demo"],
    .ended 1 .asListed]

/-- The publication that was lost has no end, and neither has the play. -/
theorem unbalanced_of_lost_of_leftFirst :
    let server := ofConfiguration {} (.single "policy" {}) [] fun _ => 0
    let unasked := ((server.run publishingUnasked).endSession 1).2.relay.ledger
    let left := ((server.run publisherLeavesFirst).endSession 2).2.relay.ledger
    (unasked.tally 1 .published ⟨"//demo"⟩ = 1 ∧ unasked.tally 1 .unpublished ⟨"//demo"⟩ = 0) ∧
      left.tally 2 .subscribed ⟨"//demo"⟩ = 1 ∧ left.tally 2 .unsubscribed ⟨"//demo"⟩ = 0 := by
  exact ⟨⟨rfl, rfl⟩, rfl, rfl⟩

end Server

end LiveRelay
