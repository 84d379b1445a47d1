import SmartParking.Backend.Effects
import SmartParking.Barrier

namespace SmartParking.Barrier

open Async Program

variable {Tid : Type} {env : QrEnvironment} {config : Config} {requests : Tid → Request}
  {choice : Choice} {now : ℤ} {db : Database} {type : QrType} {id userId : Id} {token : String}

-- An owner stays the owner.

theorem owner_setStatus {other : Id} {status : ReservationStatus} {confirmedAt : Option ℤ} :
    owner (PrismaReservationRepository.setStatus db other status confirmedAt) type id =
      owner db type id := by
  cases type with
  | ENTRY =>
      simp only [owner, PrismaReservationRepository.findById, lookup_reservations_setStatus]
      split
      next h =>
        rw [h, Option.map_map]
        rfl
      next => rfl
  | EXIT => rfl

theorem owner_setCompleted {other : Id} {exitAt : ℤ} :
    owner (PrismaParkingSessionRepository.setCompleted db other exitAt) type id =
      owner db type id := by
  cases type with
  | ENTRY => rfl
  | EXIT =>
      simp only [owner, PrismaParkingSessionRepository.findById, lookup_sessions_setCompleted]
      split
      next h =>
        rw [h, Option.map_map]
        rfl
      next => rfl

theorem owner_insert_reservation {row : Reservation} {bigger : Table Reservation.id Reservation.id}
    (hb : db.reservations.insert row = some bigger) (h : owner db type id = some userId) :
    owner { db with reservations := bigger } type id = some userId := by
  cases type with
  | ENTRY =>
      obtain ⟨old, hold, rfl⟩ := Option.map_eq_some_iff.mp h
      exact Option.map_eq_some_iff.mpr ⟨old, Table.lookup_insert_of_some hb hold, rfl⟩
  | EXIT => exact h

theorem owner_insert_session {row : ParkingSession}
    {bigger : Table ParkingSession.id ParkingSession.reservationId}
    (hb : db.sessions.insert row = some bigger) (h : owner db type id = some userId) :
    owner { db with sessions := bigger } type id = some userId := by
  cases type with
  | ENTRY => exact h
  | EXIT =>
      obtain ⟨old, hold, rfl⟩ := Option.map_eq_some_iff.mp h
      exact Option.map_eq_some_iff.mpr ⟨old, Table.lookup_insert_of_some hb hold, rfl⟩

theorem owner_claim (order : ParkingSlot → ParkingSlot → Prop) [DecidableRel order]
    (locked : Id → Bool) (branchId : Id) (slotType : Option SlotType) :
    owner (PrismaParkingSlotRepository.claim order db now locked branchId slotType).2 type id =
      owner db type id := by
  obtain ⟨slot, -, -, hclaim⟩ | hclaim :=
    PrismaParkingSlotRepository.claim_cases order db now locked branchId slotType
  · rw [hclaim]
    cases type <;> rfl
  · rw [hclaim]

theorem owner_query (h : owner db type id = some userId) (call : SmartParking.Call) :
    owner (query choice now db call).2 type id = some userId := by
  cases call with
  | slotsClaimAvailableSlot branchId slotType =>
      exact (owner_claim PrismaParkingSlotRepository.byCode choice.locked branchId slotType).trans h
  | slotsClaimLeastRecentlyUsedSlot branchId slotType =>
      exact (owner_claim PrismaParkingSlotRepository.byUpdatedAt choice.locked branchId
        slotType).trans h
  | slotsUpdateStatus slotId status =>
      rw [query_slotsUpdateStatus]
      cases type <;> exact h
  | reservationsCreate data =>
      obtain ⟨bigger, hb, hq⟩ := query_reservationsCreate db choice now data
      rw [hq]
      exact owner_insert_reservation hb h
  | reservationsUpdateStatus other status confirmedAt =>
      rw [query_reservationsUpdateStatus, owner_setStatus]
      exact h
  | sessionsCreate data =>
      obtain ⟨bigger, hb, hq⟩ | ⟨-, err, hq⟩ := query_sessionsCreate db choice now data
      · rw [hq]
        exact owner_insert_session hb h
      · rw [hq]
        exact h
  | sessionsMarkCompleted other exitAt =>
      rw [query_sessionsMarkCompleted, owner_setCompleted]
      exact h
  | _ => exact h

variable (env choice) in
theorem owner_serve {world : World} (h : owner world.db type id = some userId) (call : Call) :
    owner (serve env choice world call).2.db type id = some userId := by
  cases call with
  | backend call => exact owner_query h call
  | signEntryToken => exact h
  | signExitToken => exact h

theorem clock_serve (env : QrEnvironment) (choice : Choice) (world : World) (call : Call) :
    (serve env choice world call).2.clock = world.clock + choice.elapsed := by
  cases call with
  | backend call => cases call <;> rfl
  | signEntryToken => rfl
  | signExitToken => rfl

-- Each call keeps the stages of the executions.

theorem stage_start (request : Request) : Stage config db request (request.execute config) := by
  cases request with
  | GenerateEntryQr input => exact @Stage.asked config db .ENTRY input.reservationId input.userId
  | GenerateExitQr input => exact @Stage.asked config db .EXIT input.sessionId input.userId
  | Backend operation => exact .past (uses_map (uses_lift _ _ (operation.execute config)) _)

-- The answer of the lookup that both use cases begin with.

theorem stage_findReservation (config : Config) (db : Database) (id userId : Id) :
    Stage config db (generate .ENTRY id userId) (Reply.QrPayload <$>
      (match (PrismaReservationRepository.findById db id).filter
          fun reservation => reservation.userId = userId with
        | none => throw (.domain (.NotFound "Reservation" id))
        | some reservation => qrCode.signEntryToken reservation.id : Port String)) := by
  split
  next => exact .past trivial
  next reservation hfilter =>
    obtain ⟨hfound, huser⟩ := Option.filter_eq_some_iff.mp hfilter
    obtain ⟨-, rfl⟩ := Table.lookup_eq_some.mp hfound
    refine @Stage.found config db .ENTRY reservation.id userId ?_
    rw [owner, hfound, Option.map_some, of_decide_eq_true huser]

theorem stage_findSession (config : Config) (db : Database) (id userId : Id) :
    Stage config db (generate .EXIT id userId) (Reply.QrPayload <$>
      (match (PrismaParkingSessionRepository.findById db id).filter
          fun session => session.userId = userId with
        | none => throw (.domain (.NotFound "ParkingSession" id))
        | some session => qrCode.signExitToken session.id : Port String)) := by
  split
  next => exact .past trivial
  next session hfilter =>
    obtain ⟨hfound, huser⟩ := Option.filter_eq_some_iff.mp hfilter
    obtain ⟨-, rfl⟩ := Table.lookup_eq_some.mp hfound
    refine @Stage.found config db .EXIT session.id userId ?_
    rw [owner, hfound, Option.map_some, of_decide_eq_true huser]

theorem not_signs_backend {request : Request} (inner : SmartParking.Call) :
    Signs db request (.backend inner) := by
  rintro (_ | _) id h <;> cases h

variable (env) in
theorem Stage.step {world : World} {request : Request} {call : Call}
    {next : Except Fault (Answer call) → Port Reply}
    (h : Stage config world.db request (.await call next)) (choice : Choice) :
    Stage config (serve env choice world call).2.db request (next (serve env choice world call).1) ∧
      Signs world.db request call := by
  generalize hp : Program.await call next = p at h
  cases h with
  | @asked type id userId =>
      cases type with
      | ENTRY =>
          cases hp
          exact ⟨stage_findReservation config world.db id userId, not_signs_backend _⟩
      | EXIT =>
          cases hp
          exact ⟨stage_findSession config world.db id userId, not_signs_backend _⟩
  | @found type id userId howner =>
      cases type with
      | ENTRY =>
          cases hp
          refine ⟨.past trivial, ?_⟩
          rintro (_ | _) other h <;> cases h
          exact ⟨userId, rfl, howner⟩
      | EXIT =>
          cases hp
          refine ⟨.past trivial, ?_⟩
          rintro (_ | _) other h <;> cases h
          exact ⟨userId, rfl, howner⟩
  | past honly =>
      subst hp
      obtain ⟨inner, rfl⟩ := honly.1
      exact ⟨.past (honly.2 _), not_signs_backend inner⟩

variable (env) in
theorem Stage.serve {world : World} {request : Request} {p : Port Reply}
    (h : Stage config world.db request p) (choice : Choice) (call : Call) :
    Stage config (serve env choice world call).2.db request p := by
  cases h with
  | asked => exact .asked
  | found howner => exact .found (owner_serve env choice howner call)
  | past honly => exact .past honly

-- The invariant of the requests.

variable {history : History Tid} {thread issuer : Tid} {issued : String}

theorem issued_cons {world : World} {call : Call}
    (h : Issued (⟨thread, call, (serve env choice world call).1⟩ :: history) issuer issued type id) :
    (issuer = thread ∧ (sign type id).awaited = some call ∧ issued =
      HmacQrCodeAdapter.encode env (payload type (world.clock + choice.elapsed) id)) ∨
        Issued history issuer issued type id := by
  cases type with
  | ENTRY =>
      refine (List.mem_cons.mp h).imp_left fun heq => ?_
      rw [Event.mk.injEq] at heq
      obtain ⟨rfl, rfl, hanswer⟩ := heq
      exact ⟨rfl, rfl, Except.ok.inj (eq_of_heq hanswer)⟩
  | EXIT =>
      refine (List.mem_cons.mp h).imp_left fun heq => ?_
      rw [Event.mk.injEq] at heq
      obtain ⟨rfl, rfl, hanswer⟩ := heq
      exact ⟨rfl, rfl, Except.ok.inj (eq_of_heq hanswer)⟩

theorem kept_start (env : QrEnvironment) (config : Config) (world : World)
    (requests : Tid → Request) :
    Kept env config requests (Requests.start config world requests) where
  stage thread := stage_start (requests thread)
  issued issuer issued type id h := by cases type <;> exact absurd h List.not_mem_nil

variable [DecidableEq Tid] {pool : Requests Tid}

theorem Kept.step (h : Kept env config requests pool) (thread : Tid) (choice : Choice) :
    Kept env config requests (pool.step (serve env) thread choice) := by
  cases hthread : pool.threads thread with
  | done result =>
      rw [Pool.step_done hthread]
      exact h
  | await call next =>
      have hstage := h.stage thread
      rw [hthread] at hstage
      obtain ⟨hnext, hsigns⟩ := hstage.step env choice
      rw [Pool.step_await hthread]
      refine ⟨fun other => ?_, fun issuer issued type id hissued => ?_⟩
      · by_cases ho : other = thread
        · subst ho
          simpa only [Function.update_self] using hnext
        · simpa only [Function.update_of_ne ho] using (h.stage other).serve env choice call
      · have hclock := clock_serve env choice pool.world call
        rcases issued_cons hissued with ⟨rfl, hcall, rfl⟩ | hpast
        · obtain ⟨userId, hrequest, howner⟩ := hsigns type id hcall
          exact ⟨userId, _, hrequest, owner_serve env choice howner call, hclock.ge, rfl⟩
        · obtain ⟨userId, issuedAt, hrequest, howner, hle, rfl⟩ := h.issued issuer issued type id hpast
          refine ⟨userId, issuedAt, hrequest, owner_serve env choice howner call, ?_, rfl⟩
          rw [hclock]
          omega

theorem kept_of_reaches {guard : Pool.Guard Tid Choice World Call Answer Fault} {world : World}
    (h : Pool.Reaches (serve env) guard (Requests.start config world requests) pool) :
    Kept env config requests pool := by
  induction h with
  | refl => exact kept_start env config world requests
  | step thread choice _ _ ih => exact ih.step thread choice

-- Where an execution goes on to.

omit [DecidableEq Tid] in
theorem opens_injective {p : Port Reply} {other : Id} (h : Opens type id p)
    (h' : Opens type other p) : id = other := by
  cases type with
  | ENTRY =>
      obtain ⟨f, rfl⟩ := h
      obtain ⟨g, heq⟩ := h'
      injection heq with _ hnext
      have hcall := congrArg awaited (congrFun hnext (.ok 0))
      cases hcall
      rfl
  | EXIT =>
      obtain ⟨f, rfl⟩ := h
      obtain ⟨g, heq⟩ := h'
      injection heq with _ hnext
      have hcall := congrArg awaited (congrFun hnext (.ok 0))
      cases hcall
      rfl

theorem not_opens_done {result : Except Fault Reply} : ¬Opens type id (.done result) := by
  cases type with
  | ENTRY => exact fun ⟨_, h⟩ => absurd (congrArg awaited h) nofun
  | EXIT => exact fun ⟨_, h⟩ => absurd (congrArg awaited h) nofun

-- What a verified payload lets the execution do.

def subject : QrType → QrPayload → Option Id
  | .ENTRY, said => said.reservationId
  | .EXIT, said => said.sessionId

def Follows (type : QrType) : Except Fault QrPayload → Port Reply → Prop
  | .error err, p => p = .done (.error err)
  | .ok said, p => (∃ id, said.type = type ∧ subject type said = some id ∧ Opens type id p) ∨
      p = .done (.error (.domain .invalidQrCode))

-- An operation that reads the clock first.
theorem lift_clockNow {α β : Type} (q : ℤ → SmartParking.Port α)
    (g : ℤ → α → SmartParking.Port β) (k : β → SmartParking.Port Outcome) :
    Reply.Outcome <$> lift ((clock.now >>= fun now => q now >>= g now) >>= k) =
      lift clock.now >>= fun now => lift (q now) >>= fun value =>
        Reply.Outcome <$> lift (g now value >>= k) := by
  simp only [map_eq_pure_bind, lift_bind, LawfulMonad.bind_assoc]

theorem follows_execute (config : Config) (token : String)
    {next : Except Fault QrPayload → Port Reply}
    (h : (submit type token).execute config = .await (.backend (.qrCodeVerify token)) next)
    (answer : Except Fault QrPayload) : Follows type answer (next answer) := by
  cases type with
  | ENTRY =>
      injection h with _ hnext
      subst hnext
      rcases answer with err | ⟨saidType, _ | id, sessionId, expiresAt⟩
      · rfl
      · exact .inr rfl
      · by_cases hrefused : saidType ≠ .ENTRY ∨ id = ""
        · refine .inr ?_
          simp only [Except.map, id_eq, Program.bind, if_pos hrefused]
          rfl
        · refine .inl ⟨id, not_not.mp (not_or.mp hrefused).1, rfl, ?_⟩
          simp only [Except.map, id_eq, Program.bind, if_neg hrefused]
          exact ⟨_, lift_clockNow (DefaultParkingPolicy.registerEntry id) (fun _ session => do
            RegisterEntryUseCase.announce session id
            pure session) _⟩
  | EXIT =>
      injection h with _ hnext
      subst hnext
      rcases answer with err | ⟨saidType, reservationId, _ | id, expiresAt⟩
      · rfl
      · exact .inr rfl
      · by_cases hrefused : saidType ≠ .EXIT ∨ id = ""
        · refine .inr ?_
          simp only [Except.map, id_eq, Program.bind, if_pos hrefused]
          rfl
        · refine .inl ⟨id, not_not.mp (not_or.mp hrefused).1, rfl, ?_⟩
          simp only [Except.map, id_eq, Program.bind, if_neg hrefused]
          exact ⟨_, lift_clockNow (fun _ => sessions.findById id) _ _⟩

theorem await_submit (type : QrType) (token : String) : ∃ next,
    (submit type token).execute config = .await (.backend (.qrCodeVerify token)) next := by
  cases type <;> exact ⟨_, rfl⟩

theorem step_submit (env : QrEnvironment) (choice : Choice)
    (hthread : pool.threads thread = (submit type token).execute config) :
    (pool.step (serve env) thread choice).world.db = pool.world.db ∧
      Follows type (HmacQrCodeAdapter.verify env (pool.world.clock + choice.elapsed) token)
        ((pool.step (serve env) thread choice).threads thread) := by
  obtain ⟨next, hnext⟩ := @await_submit config type token
  have hawait := hthread.trans hnext
  refine ⟨by rw [Pool.step_await hawait]; rfl, ?_⟩
  rw [Pool.threads_step_self hawait]
  exact follows_execute config token hnext _

-- What the verification of a token comes to.

theorem payload_injective {other : QrType} {issuedAt issuedAt' : ℤ} {id' : Id}
    (h : payload type issuedAt id = payload other issuedAt' id') : type = other := by
  cases type <;> cases other <;> first | rfl | cases h

theorem type_payload (type : QrType) (issuedAt : ℤ) (id : Id) :
    (payload type issuedAt id).type = type ∧ subject type (payload type issuedAt id) = some id ∧
      (payload type issuedAt id).expiresAt = issuedAt + HmacQrCodeAdapter.QR_TTL_MS := by
  cases type <;> exact ⟨rfl, rfl, rfl⟩

-- What an authentic token was signed for.
omit [DecidableEq Tid] in
theorem Kept.signed (h : Kept env config requests pool) (hideal : pool.Meets (Ideal env) thread choice)
    (hthread : pool.threads thread = (submit type token).execute config)
    (hauthentic : HmacQrCodeAdapter.authentic env token = true) :
    ∃ issuer other id userId issuedAt, requests issuer = generate other id userId ∧
      owner pool.world.db other id = some userId ∧ issuedAt ≤ pool.world.clock ∧
        Issued pool.history issuer (HmacQrCodeAdapter.encode env (payload other issuedAt id)) other
          id ∧
          HmacQrCodeAdapter.segments token = HmacQrCodeAdapter.segments
            (HmacQrCodeAdapter.encode env (payload other issuedAt id)) := by
  obtain ⟨next, hnext⟩ := @await_submit config type token
  obtain ⟨issuer, issued, other, id, hissued, hsegment⟩ :=
    (Pool.meets_await (hthread.trans hnext) choice).mp hideal token rfl hauthentic
  obtain ⟨userId, issuedAt, hrequest, howner, hclock, rfl⟩ := h.issued issuer issued other id hissued
  rw [HmacQrCodeAdapter.segments_encode] at hsegment
  exact ⟨issuer, other, id, userId, issuedAt, hrequest, howner, hclock, hissued,
    HmacQrCodeAdapter.segments_of_authentic hauthentic hsegment⟩

-- A token is refused, or it was obtained by the owner of what it opens.
theorem Kept.verdict (h : Kept env config requests pool)
    (hideal : pool.Meets (Ideal env) thread choice)
    (hthread : pool.threads thread = (submit type token).execute config) :
    Refused thread pool (pool.step (serve env) thread choice) ∨
      ∃ id, Opens type id ((pool.step (serve env) thread choice).threads thread) ∧
        Obtained env requests pool.history pool.world.db (pool.world.clock + choice.elapsed) token
          type id := by
  obtain ⟨hdb, hfollows⟩ := step_submit env choice hthread
  by_cases hauthentic : HmacQrCodeAdapter.authentic env token = true
  · obtain ⟨issuer, other, id, userId, issuedAt, hrequest, howner, hclock, hissued, hsegments⟩ :=
      h.signed hideal hthread hauthentic
    obtain ⟨htype, hsubject, hexpires⟩ := type_payload other issuedAt id
    rw [HmacQrCodeAdapter.verify_of_segments hsegments, hexpires] at hfollows
    split at hfollows
    next => exact .inl ⟨⟨_, hfollows⟩, hdb⟩
    next hfresh =>
      rcases hfollows with ⟨opened, hsaid, hopened, hopens⟩ | hrefused
      · obtain rfl : other = type := htype.symm.trans hsaid
        obtain rfl : id = opened := Option.some.inj (hsubject.symm.trans hopened)
        exact .inr ⟨id, hopens, issuer, userId, issuedAt, hrequest, howner, hissued, by omega,
          by omega, hsegments⟩
      · exact .inl ⟨⟨_, hrefused⟩, hdb⟩
  · rw [HmacQrCodeAdapter.verify, if_neg hauthentic] at hfollows
    exact .inl ⟨⟨_, hfollows⟩, hdb⟩

omit [DecidableEq Tid] in
theorem Refused.guarded {after : Requests Tid} (h : Refused thread pool after) :
    Guarded env requests thread now token type pool after where
  opens id hopens := by
    obtain ⟨message, hdone⟩ := h.error
    rw [hdone] at hopens
    exact absurd hopens not_opens_done
  answers := .inr h
  crossed _ _ _ _ _ _ _ := h
  refuses _ := h

theorem Kept.guarded (h : Kept env config requests pool)
    (hideal : pool.Meets (Ideal env) thread choice)
    (hthread : pool.threads thread = (submit type token).execute config) :
    Guarded env requests thread (pool.world.clock + choice.elapsed) token type pool
      (pool.step (serve env) thread choice) := by
  rcases h.verdict hideal hthread with hrefused | ⟨id, hopens, hobtained⟩
  · exact hrefused.guarded
  · refine ⟨fun other hother => ?_, .inl ⟨id, hopens⟩, ?_, fun hnone => absurd hobtained (hnone id)⟩
    · exact opens_injective hopens hother ▸ hobtained
    · intro issuer issued other id' hissued hsegments hother
      obtain ⟨-, -, issuedAt, -, -, -, -, -, hown⟩ := hobtained
      obtain ⟨-, issuedAt', -, -, -, rfl⟩ := h.issued issuer issued other id' hissued
      rw [hown, HmacQrCodeAdapter.segments_encode, HmacQrCodeAdapter.segments_encode] at hsegments
      have hpayload := HmacQrCodeAdapter.encodePayload_injective (Prod.ext_iff.mp hsegments).1
      exact absurd (payload_injective hpayload).symm hother

omit [DecidableEq Tid] in
theorem Kept.fresh (h : Kept env config requests pool) : Fresh env pool := by
  intro issuer issued type id hissued
  obtain ⟨-, issuedAt, -, -, hclock, rfl⟩ := h.issued issuer issued type id hissued
  refine ⟨issuedAt, hclock, fun now hnow => ?_⟩
  rw [HmacQrCodeAdapter.verify_of_segments rfl, (type_payload type issuedAt id).2.2,
    if_neg (not_lt.mpr hnow)]

-- In every state of every run, issued tokens verify, and every token that is
-- submitted is refused but for the fresh one of the owner.
theorem guarded_of_reaches (env : QrEnvironment) (config : Config) (world : World)
    (requests : Tid → Request) (pool : Requests Tid)
    (hreach : Pool.Reaches (serve env) (Ideal env) (Requests.start config world requests) pool) :
    Fresh env pool ∧ ∀ thread choice type token, requests thread = submit type token →
      pool.threads thread = (requests thread).execute config →
        pool.Meets (Ideal env) thread choice →
          Guarded env requests thread (pool.world.clock + choice.elapsed) token type pool
            (pool.step (serve env) thread choice) := by
  have hkept := kept_of_reaches hreach
  refine ⟨hkept.fresh, fun thread choice type token hrequest hthread hideal => ?_⟩
  rw [hrequest] at hthread
  exact hkept.guarded hideal hthread

theorem issued_shown : Issued Demo.shown.history false Demo.token .ENTRY "r1" :=
  List.mem_cons_self

theorem meets_shown : Demo.shown.Meets (Ideal Demo.env) true (Demo.choice "r1") := by
  intro token h _
  cases h
  exact ⟨false, Demo.token, .ENTRY, "r1", issued_shown, rfl⟩

theorem guarded_shown :
    Fresh Demo.env Demo.shown ∧
      Guarded Demo.env Demo.requests true 3 Demo.token .ENTRY Demo.shown
        (Demo.shown.step (serve Demo.env) true (Demo.choice "r1")) := by
  have hreach : Pool.Reaches (serve Demo.env) (Ideal Demo.env)
      (Requests.start Demo.config Demo.world Demo.requests) Demo.shown :=
    Pool.reaches_of_follows .refl ⟨nofun, nofun, trivial⟩
  obtain ⟨hfresh, h⟩ := guarded_of_reaches Demo.env Demo.config Demo.world Demo.requests
    Demo.shown hreach
  exact ⟨hfresh, h true (Demo.choice "r1") .ENTRY Demo.token rfl rfl meets_shown⟩

end SmartParking.Barrier
