import EthereumSettlement.GatewayChanges

/-!
# Fencing tokens of the outer writer

Every reservation is granted under a token that is one larger than the token
before it, and nothing else changes the token. A row that keeps its token keeps its
reservation or loses it, so a reservation that has ended never matches again, and
every transaction that presents its token is refused or finds nothing to change.
-/

namespace EthereumSettlement.FencingTokens

open CheckedCalls TransitionRuns GatewayTables OuterWriter ProofJobs GatewayRuns GatewayChanges

/-- The reservation that the writer row holds. -/
def reservation (owner : Owner) : Option Uuid := owner.holder.map Holder.reservationId

/-- The later row has the same token and no other reservation, or a larger token. -/
def Follows (before after : Owner) : Prop :=
  (after.fencingToken = before.fencingToken ∧
      ∀ id, reservation after = some id → reservation before = some id) ∨
    before.fencingToken < after.fencingToken

/-- A row follows itself. -/
theorem Follows.refl (owner : Owner) : Follows owner owner := Or.inl ⟨rfl, fun _ => id⟩

/-- Following is transitive. -/
theorem Follows.trans {first second third : Owner} (h1 : Follows first second)
    (h2 : Follows second third) : Follows first third := by
  rcases h1 with ⟨ht1, hr1⟩ | hlt1
  · rcases h2 with ⟨ht2, hr2⟩ | hlt2
    · exact Or.inl ⟨ht2.trans ht1, fun id hid => hr1 id (hr2 id hid)⟩
    · exact Or.inr (ht1 ▸ hlt2)
  · rcases h2 with ⟨ht2, -⟩ | hlt2
    · exact Or.inr (ht2 ▸ hlt1)
    · exact Or.inr (hlt1.trans hlt2)

/-- A later row that holds a reservation under the same token holds the earlier one. -/
theorem Follows.reservation_eq {before after : Owner} (h : Follows before after)
    (htoken : after.fencingToken = before.fencingToken) {id : Uuid}
    (hid : reservation after = some id) : reservation before = some id := by
  rcases h with ⟨-, hr⟩ | hlt
  · exact hr id hid
  · omega

/-- The token never decreases. -/
theorem Follows.fencingToken_le {before after : Owner} (h : Follows before after) :
    before.fencingToken ≤ after.fencingToken := by
  rcases h with ⟨heq, -⟩ | hlt
  · omega
  · omega

variable {state : AppState}

/-- Every transaction leaves a row that follows the row before it. -/
theorem follows_of_writerChange {db : Database} {generated : List Uuid} {writer : Owner}
    (h : WriterChange db generated writer) : Follows db.writer writer := by
  cases h with
  | kept => exact Follows.refl db.writer
  | lapsed now =>
    refine Or.inl ⟨rfl, fun id hid => ?_⟩
    obtain ⟨holder, hholder, hid⟩ := Option.map_eq_some_iff.mp hid
    rw [reservation, (lapsed_holder.mp hholder).1, Option.map_some, hid]
  | extended holder expiry hholder hjob =>
    refine Or.inl ⟨rfl, fun id hid => ?_⟩
    rw [reservation, hholder]
    exact hid
  | granted now holder hfree hid => exact Or.inr (Nat.lt_succ_self _)
  | released holder hholder hjob =>
    refine Or.inl ⟨rfl, fun id hid => ?_⟩
    simp [reservation] at hid
  | attached holder jobId hholder hjob =>
    refine Or.inl ⟨rfl, fun id hid => ?_⟩
    rw [reservation, hholder]
    exact hid

/-- A step leaves a row that follows the row before it. -/
theorem follows_step {s next : GatewayState} {action : Action} (hkeyed : Keyed s)
    (h : step state s action = .ok next) : Follows s.db.writer next.db.writer :=
  follows_of_writerChange (step_changes hkeyed h).writer

/-- A run leaves a row that follows the row it started from. -/
theorem follows_run (state : AppState) {s : GatewayState} (hkeyed : Keyed s) (actions : List Action) :
    Follows s.db.writer (run (step state) s actions).db.writer ∧
      Keyed (run (step state) s actions) := by
  have hstep : ∀ middle action next, Follows s.db.writer middle.db.writer ∧ Keyed middle →
      step state middle action = .ok next → Follows s.db.writer next.db.writer ∧ Keyed next := by
    intro middle action next hmiddle h
    exact ⟨hmiddle.1.trans (follows_step hmiddle.2 h), keyed_step hmiddle.2 h⟩
  exact run_invariant hstep ⟨Follows.refl _, hkeyed⟩ actions

/-- A token that the row does not match is refused by every transaction that presents it, and
none of them changes more than `lock` does. -/
structure Refused (state : AppState) (s : GatewayState) (token : ReservationToken) : Prop where
  /-- It renews nothing. -/
  renew : ∀ now ttlSeconds next, step state s (.serve (.renew now token ttlSeconds)) ≠ .ok next
  /-- It releases nothing: a release succeeds on a free row only. -/
  release : ∀ now next, step state s (.serve (.release now token)) = .ok next →
    (lapsed s.db now).holder = none ∧ next.db.writer = lapsed s.db now
  /-- It attaches no settlement. -/
  createSettlement : ∀ now id header (request : SettlementRequest) next,
    request.reservation = some token →
    step state s (.serve (.createSettlement now id header request)) = .ok next →
      next.db.jobs = s.db.jobs ∧ next.db.writer = lapsed s.db now
  /-- It attaches no settlement of the Mina interface. -/
  sendZkapp : ∀ now id (settlement : GatewaySettlement) next,
    settlement.reservation = some token →
    step state s (.serve (.sendZkapp now id settlement)) = .ok next →
      next.db.jobs = s.db.jobs ∧ next.db.writer = lapsed s.db now

variable {s : GatewayState} {token : ReservationToken}

/-- An admission under a token that the row does not match replays an existing job. -/
theorem replayed_of_unmatched {db after : Database} {now : Timestamp} {id reservationId : Uuid}
    {input : JobInput} (hunmatched : ¬ Matches db.writer token)
    (hpresented : input.reservation = some token)
    (h : Admission db after now id reservationId .settlement input) :
    after.jobs = db.jobs ∧ after.writer = lapsed db now := by
  rcases h.outcome with hreplayed | ⟨key, digest, -, -, -, hattached⟩
  · exact hreplayed
  · generalize after.writer = writer at hattached
    cases hattached with
    | settlement presented holder hkind hinput hmatches =>
      have htoken : presented = token := Option.some.inj (hinput.symm.trans hpresented)
      rw [htoken] at hmatches
      exact absurd (matches_of_lapsed hmatches) hunmatched
    | bridge holder hkind => exact absurd hkind (by simp [Job.queued])

/-- A token that the row does not match is refused. -/
theorem refused_of_unmatched (hkeyed : Keyed s) (hunmatched : ¬ Matches s.db.writer token) :
    Refused state s token := by
  have hfresh : ∀ {request next}, step state s (.serve request) = .ok next →
      ∀ id ∈ (Action.serve request).generated, ∀ job ∈ s.db.jobs, job.id ≠ id := by
    intro request next h id hid job hjob heq
    exact (step_eq_ok.mp h).1.2 id hid (heq ▸ hkeyed.minted job hjob)
  constructor
  · intro now ttlSeconds next h
    obtain ⟨-, _, hperform, -⟩ := step_eq_ok.mp h
    simp only [perform, serve, bind_eq_ok, map_eq_ok, renew, Prod.exists, exists_and_right]
      at hperform
    obtain ⟨-, ⟨db, ⟨result, seconds, -, hrenew⟩, -⟩, -⟩ := hperform
    exact hunmatched (renewToken_eq_ok hrenew).1
  · intro now next h
    obtain ⟨-, _, hperform, rfl⟩ := step_eq_ok.mp h
    simp only [perform, serve, bind_eq_ok, pure_eq_ok] at hperform
    obtain ⟨db, hrelease, rfl⟩ := hperform
    obtain ⟨-, ⟨hfree, rfl⟩ | ⟨holder, -, hmatches, -, -⟩⟩ := release_eq_ok hrelease
    · exact ⟨hfree, rfl⟩
    · exact absurd (matches_of_lapsed hmatches) hunmatched
  · intro now id header request next hpresented h
    have hids := hfresh h id List.mem_cons_self
    obtain ⟨-, _, hperform, rfl⟩ := step_eq_ok.mp h
    simp only [perform, serve, createSettlement, bind_eq_ok, map_eq_ok, require_eq_ok,
      exists_const, pure_eq_ok, Prod.exists, exists_and_right] at hperform
    obtain ⟨db, ⟨_, ⟨actualId, -, -, -, hcreate⟩, rfl⟩, rfl⟩ := hperform
    exact replayed_of_unmatched hunmatched hpresented (createJob_admission hids hcreate)
  · intro now id settlement next hpresented h
    have hids := hfresh h id List.mem_cons_self
    obtain ⟨-, _, hperform, rfl⟩ := step_eq_ok.mp h
    simp only [perform, serve, bind_eq_ok, map_eq_ok, pure_eq_ok, Prod.exists, exists_and_right]
      at hperform
    obtain ⟨db, ⟨_, ⟨actualId, hsend⟩, rfl⟩, rfl⟩ := hperform
    exact replayed_of_unmatched hunmatched hpresented (sendZkapp_admission hids hsend)

/-- A token that matched a row and does not match a later row never matches again. -/
theorem unmatched_later {first second third : Owner} (h1 : Follows first second)
    (h2 : Follows second third) (hmatched : Matches first token)
    (hended : ¬ Matches second token) : ¬ Matches third token := by
  intro hagain
  have hparse : first.fencingToken = third.fencingToken := by
    have h := hmatched.2.symm.trans hagain.2
    simpa using h
  have hle1 := h1.fencingToken_le
  have hle2 := h2.fencingToken_le
  have hsame : third.fencingToken = second.fencingToken := by omega
  refine hended ⟨h2.reservation_eq hsame hagain.1, ?_⟩
  rw [hagain.2, hsame]

/-- What `acquire` answers: the live reservation of the same owner under its token, or a new
reservation under a token larger than the one before. -/
theorem acquire_answer {db after : Database} {now : Timestamp} {reservationId : Uuid}
    {request : AcquireRequest} {block : BlockRef} {checkpoint : SettlementState}
    {result : Reservation}
    (h : acquire state db now reservationId request block checkpoint = .ok (after, result)) :
    reservation after.writer = some result.reservationId ∧
      result.fencingToken = after.writer.fencingToken ∧
      ((∃ holder, (lapsed db now).holder = some holder ∧ holder.ownerId = request.ownerId ∧
          result.reservationId = holder.reservationId ∧
          result.fencingToken = db.writer.fencingToken) ∨
        (result.reservationId = reservationId ∧
          db.writer.fencingToken < result.fencingToken)) := by
  simp only [acquire, bind_eq_ok] at h
  obtain ⟨-, -, h⟩ := h
  obtain ⟨-, writer, rfl, hresponse, hwriter⟩ := acquireWithCheckpoint_eq_ok h
  obtain ⟨hid, htoken⟩ := response_eq_ok hresponse
  refine ⟨hid, htoken, ?_⟩
  rcases hwriter with ⟨holder, expiry, hholder, -, howner, rfl⟩ | ⟨-, -, holder, hgranted, rfl⟩
  · exact Or.inl ⟨holder, hholder, howner, (Option.some.inj hid).symm, htoken⟩
  · refine Or.inr ⟨(Option.some.inj hid).symm.trans hgranted, ?_⟩
    rw [htoken]
    exact Nat.lt_succ_self _

/-- A token that matched before a step and does not match after it is refused from then on. -/
theorem refused_after_step (hkeyed : Keyed s) {action : Action} {next : GatewayState}
    (h : step state s action = .ok next) (hmatched : Matches s.db.writer token)
    (hended : ¬ Matches next.db.writer token) (more : List Action) :
    Refused state (run (step state) next more) token := by
  obtain ⟨hmore, hkeyedMore⟩ := follows_run state (keyed_step hkeyed h) more
  exact refused_of_unmatched hkeyedMore
    (unmatched_later (follows_step hkeyed h) hmore hmatched hended)

/-- An accepted release leaves no reservation. -/
theorem reservation_of_release {now : Timestamp} {next : GatewayState}
    (h : step state s (.serve (.release now token)) = .ok next) :
    reservation next.db.writer = none := by
  obtain ⟨-, _, hperform, rfl⟩ := step_eq_ok.mp h
  simp only [perform, serve, bind_eq_ok, pure_eq_ok] at hperform
  obtain ⟨db, hrelease, rfl⟩ := hperform
  obtain ⟨-, ⟨hfree, rfl⟩ | ⟨holder, -, -, -, rfl⟩⟩ := release_eq_ok hrelease
  · exact Option.map_eq_none_iff.mpr hfree
  · rfl

/-- An accepted acquisition that finds no live reservation of its owner installs the new
reservation under a larger token. -/
theorem reservation_of_takeover {now : Timestamp} {reservationId : Uuid} {request : AcquireRequest}
    {block : BlockRef} {checkpoint : SettlementState} {next : GatewayState}
    (h : step state s (.serve (.acquire now reservationId request block checkpoint)) = .ok next)
    (hother : ∀ holder, (lapsed s.db now).holder = some holder →
      holder.ownerId ≠ request.ownerId) :
    reservation next.db.writer = some reservationId ∧
      s.db.writer.fencingToken < next.db.writer.fencingToken := by
  obtain ⟨-, _, hperform, rfl⟩ := step_eq_ok.mp h
  simp only [perform, serve, bind_eq_ok, map_eq_ok, pure_eq_ok, Prod.exists, exists_and_right]
    at hperform
  obtain ⟨db, ⟨_, ⟨result, hacquire⟩, rfl⟩, rfl⟩ := hperform
  obtain ⟨hid, htoken, ⟨holder, hholder, howner, -, -⟩ | ⟨hnew, hlt⟩⟩ := acquire_answer hacquire
  · exact absurd howner (hother holder hholder)
  · rw [hnew] at hid
    rw [htoken] at hlt
    exact ⟨hid, hlt⟩

/-- Over any interleaving, two moments of a run that see different reservations see strictly
increasing tokens; a granted reservation has a token larger than every earlier one, unless it is
the live reservation of the same owner; and a token that has matched the writer row and then does
not match it is refused from then on. In particular a release that is accepted under the
matching token leaves no reservation, an acquisition that is accepted without a live
reservation of its owner puts its own in the place of the matching one, and the token is
refused from then on. -/
theorem tokens_increase_and_end (state : AppState) (earlier later : List Action) :
    let s := run (step state) start earlier
    let t := run (step state) s later
    (∀ first second, reservation s.db.writer = some first → reservation t.db.writer = some second →
        (second = first ∧ t.db.writer.fencingToken = s.db.writer.fencingToken) ∨
          s.db.writer.fencingToken < t.db.writer.fencingToken) ∧
      (∀ now reservationId request block checkpoint after result,
        acquire state t.db now reservationId request block checkpoint = .ok (after, result) →
        reservation after.writer = some result.reservationId ∧
          result.fencingToken = after.writer.fencingToken ∧
          ((∃ holder, (lapsed t.db now).holder = some holder ∧ holder.ownerId = request.ownerId ∧
              result.reservationId = holder.reservationId ∧
              result.fencingToken = t.db.writer.fencingToken) ∨
            (result.reservationId = reservationId ∧
              s.db.writer.fencingToken < result.fencingToken))) ∧
      (∀ token, Matches s.db.writer token → ¬ Matches t.db.writer token →
        ∀ more, Refused state (run (step state) t more) token) ∧
      (∀ token now next, Matches t.db.writer token →
        step state t (.serve (.release now token)) = .ok next →
          reservation next.db.writer = none ∧
            ∀ more, Refused state (run (step state) next more) token) ∧
      ∀ token now reservationId request block checkpoint next, Matches t.db.writer token →
        step state t (.serve (.acquire now reservationId request block checkpoint)) = .ok next →
        (∀ holder, (lapsed t.db now).holder = some holder → holder.ownerId ≠ request.ownerId) →
          reservation next.db.writer = some reservationId ∧
            t.db.writer.fencingToken < next.db.writer.fencingToken ∧
            ∀ more, Refused state (run (step state) next more) token := by
  intro s t
  have hkeyed : Keyed s := keyed_run state earlier
  obtain ⟨hfollows, hkeyedLater⟩ := follows_run state hkeyed later
  refine ⟨?_, ?_, ?_, ?_, ?_⟩
  · intro first second hfirst hsecond
    rcases hfollows with ⟨htoken, hreservation⟩ | hlt
    · have heq : some first = some second := hfirst.symm.trans (hreservation second hsecond)
      exact Or.inl ⟨(Option.some.inj heq).symm, htoken⟩
    · exact Or.inr hlt
  · intro now reservationId request block checkpoint after result h
    obtain ⟨hid, htoken, hlive | ⟨hnew, hlt⟩⟩ := acquire_answer h
    · exact ⟨hid, htoken, Or.inl hlive⟩
    · have hle := hfollows.fencingToken_le
      exact ⟨hid, htoken, Or.inr ⟨hnew, lt_of_le_of_lt hle hlt⟩⟩
  · intro token hmatched hended more
    obtain ⟨hmore, hkeyedMore⟩ := follows_run state hkeyedLater more
    exact refused_of_unmatched hkeyedMore (unmatched_later hfollows hmore hmatched hended)
  · intro token now next hmatched h
    have hnone := reservation_of_release h
    have hended : ¬ Matches next.db.writer token := by
      intro hagain
      have hsome : reservation next.db.writer = some token.id := hagain.1
      rw [hnone] at hsome
      cases hsome
    exact ⟨hnone, refused_after_step hkeyedLater h hmatched hended⟩
  · intro token now reservationId request block checkpoint next hmatched h hother
    obtain ⟨hid, hlt⟩ := reservation_of_takeover h hother
    have hended : ¬ Matches next.db.writer token := by
      intro hagain
      have hsame := hmatched.2.symm.trans hagain.2
      have hequal : t.db.writer.fencingToken = next.db.writer.fencingToken := by simpa using hsame
      omega
    exact ⟨hid, hlt, refused_after_step hkeyedLater h hmatched hended⟩

/-- A second owner takes over an expired reservation, and the first token is refused; and it is
refused after the first owner has released its live reservation. -/
theorem tokens_increase_and_end_takeover :
    let s := run (step replica) start (startup ++ [acquireAt 0 1 "first"])
    let t := run (step replica) s [acquireAt (40 * second) 2 "second"]
    ((Matches s.db.writer ⟨1, "1"⟩ ∧ ¬ Matches t.db.writer ⟨1, "1"⟩) ∧
        Refused replica t ⟨1, "1"⟩) ∧
      ∃ next, step replica s (.serve (.release second ⟨1, "1"⟩)) = .ok next ∧
        Refused replica next ⟨1, "1"⟩ := by
  have hended : Matches (run (step replica) start (startup ++ [acquireAt 0 1 "first"])).db.writer
        ⟨1, "1"⟩ ∧
      ¬ Matches (run (step replica) (run (step replica) start (startup ++ [acquireAt 0 1 "first"]))
        [acquireAt (40 * second) 2 "second"]).db.writer ⟨1, "1"⟩ := by
    decide
  have hrefused := (tokens_increase_and_end replica (startup ++ [acquireAt 0 1 "first"])
    [acquireAt (40 * second) 2 "second"]).2.2.1 ⟨1, "1"⟩ hended.1 hended.2 []
  have hreleases : Succeeds (step replica (run (step replica) start
      (startup ++ [acquireAt 0 1 "first"])) (.serve (.release second ⟨1, "1"⟩))) := by
    decide
  obtain ⟨next, hnext⟩ := hreleases
  have hreleased := (tokens_increase_and_end replica (startup ++ [acquireAt 0 1 "first"])
    []).2.2.2.1 ⟨1, "1"⟩ second next hended.1 hnext
  exact ⟨⟨hended, hrefused⟩, next, hnext, hreleased.2 []⟩

end EthereumSettlement.FencingTokens
