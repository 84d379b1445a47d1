import SmartParking.Realtime.Audience
import SmartParking.Realtime.Isolation.Theorems

namespace SmartParking.Realtime

variable {Payload : Type} {jwtVerify : String → Except String JwtPayload} {nsp : Nsp}
  {id : Sid} {client : Option Client} {event : RealtimeEvent Payload}

-- Which rooms a socket is in, as each handler leaves it.

theorem mem_rooms_join {socket : Socket} {room other : String} :
    other ∈ (socket.join room).rooms ↔ other = room ∨ other ∈ socket.rooms :=
  List.mem_insert_iff

theorem mem_rooms_leave {socket : Socket} {room other : String} :
    other ∈ (socket.leave room).rooms ↔ other ∈ socket.rooms ∧ other ≠ room := by
  simp [Socket.leave]

theorem mem_rooms_connection {text : String} {user : AuthenticatedUser} {room : String} :
    room ∈ (Socket.onConnection id text user).rooms ↔
      room = id.text ∨ room = userRoom user.sub ∨ (room = ADMIN_ROOM ∧ user.role = .ADMIN) := by
  refine ⟨mem_rooms_onConnection, fun h => ?_⟩
  unfold Socket.onConnection
  by_cases hadmin : user.role = .ADMIN
  · rw [if_pos hadmin, mem_rooms_join, mem_rooms_join, List.mem_singleton]
    tauto
  · rw [if_neg hadmin, mem_rooms_join, List.mem_singleton]
    tauto

theorem mem_rooms_onJoinBranch {socket : Socket} {branchId : Option String} {room : String} :
    room ∈ (socket.onJoinBranch branchId).rooms ↔ room ∈ socket.rooms ∨
      ∃ joined ≠ "", branchId = some joined ∧ room = branchRoom joined := by
  refine ⟨mem_rooms_of_onJoinBranch, fun h => ?_⟩
  cases branchId with
  | none => simpa [Socket.onJoinBranch] using h
  | some joined =>
      dsimp only [Socket.onJoinBranch]
      split
      next hempty =>
        rcases h with h | ⟨other, hne, heq, -⟩
        · exact h
        · exact absurd ((Option.some.inj heq).symm.trans hempty) hne
      next =>
        rcases h with h | ⟨other, -, heq, rfl⟩
        · exact mem_rooms_join.mpr (.inr h)
        · cases heq
          exact mem_rooms_join.mpr (.inl rfl)

theorem mem_rooms_onLeaveBranch {socket : Socket} {branchId : Option String} {room : String} :
    room ∈ (socket.onLeaveBranch branchId).rooms ↔ room ∈ socket.rooms ∧
      ∀ left ≠ "", branchId = some left → room ≠ branchRoom left := by
  refine ⟨mem_rooms_of_onLeaveBranch, fun h => ?_⟩
  cases branchId with
  | none => exact h.1
  | some left =>
      dsimp only [Socket.onLeaveBranch]
      split
      next => exact h.1
      next hne => exact mem_rooms_leave.mpr ⟨h.1, h.2 left hne rfl⟩

-- The rooms of the user are left alone by both handlers.

theorem roomed_onConnection (text : String) (user : AuthenticatedUser) :
    (Socket.onConnection id text user).Roomed := by
  constructor
  case user =>
    intro userId
    rw [mem_rooms_connection, user_onConnection]
    constructor
    · rintro (h | h | ⟨h, -⟩)
      · exact absurd h.symm (id.ne_userRoom userId)
      · exact (userRoom_inj h).symm
      · exact absurd h (userRoom_ne_ADMIN_ROOM userId)
    · rintro rfl
      exact .inr (.inl rfl)
  case admin =>
    rw [mem_rooms_connection, user_onConnection]
    constructor
    · rintro (h | h | ⟨-, h⟩)
      · exact absurd h.symm id.ne_ADMIN_ROOM
      · exact absurd h.symm (userRoom_ne_ADMIN_ROOM user.sub)
      · exact h
    · exact fun h => .inr (.inr ⟨rfl, h⟩)

theorem Socket.Roomed.congr {socket other : Socket} (h : socket.Roomed) (huser : other.user = socket.user)
    (hrooms : ∀ room, (∀ branchId, room ≠ branchRoom branchId) →
      (room ∈ other.rooms ↔ room ∈ socket.rooms)) : other.Roomed where
  user userId := by
    rw [hrooms _ fun branchId => userRoom_ne_branchRoom userId branchId, h.user, huser]
  admin := by
    rw [hrooms _ fun branchId => (branchRoom_ne_ADMIN_ROOM branchId).symm, h.admin, huser]

theorem roomed_onJoinBranch {socket : Socket} (h : socket.Roomed) (branchId : Option String) :
    (socket.onJoinBranch branchId).Roomed := by
  refine h.congr (onJoinBranch_same socket branchId).2.2 fun room hroom => ?_
  rw [mem_rooms_onJoinBranch, or_iff_left]
  rintro ⟨joined, -, -, rfl⟩
  exact hroom joined rfl

theorem roomed_onLeaveBranch {socket : Socket} (h : socket.Roomed) (branchId : Option String) :
    (socket.onLeaveBranch branchId).Roomed := by
  refine h.congr (onLeaveBranch_same socket branchId).2.2 fun room hroom => ?_
  rw [mem_rooms_onLeaveBranch, and_iff_left]
  exact fun left _ _ => hroom left

theorem roomed_update (h : ∀ socket ∈ nsp, socket.Roomed) {change : Socket → Socket}
    (hchange : ∀ socket : Socket, socket.Roomed → (change socket).Roomed) (sender : Sid) :
    ∀ socket ∈ nsp.update sender change, socket.Roomed := by
  intro changed hm
  obtain ⟨socket, hs, rfl⟩ := List.mem_map.mp hm
  split
  · exact hchange socket (h socket hs)
  · exact h socket hs

theorem roomed_step (h : ∀ socket ∈ nsp, socket.Roomed) (event : RealtimeEvent Payload) :
    ∀ socket ∈ nsp.step jwtVerify event, socket.Roomed := by
  cases event with
  | connect sender token =>
      dsimp only [Nsp.step, Nsp.connect]
      split
      · exact h
      · split
        · exact h
        · exact List.forall_mem_cons.mpr ⟨roomed_onConnection _ _, h⟩
  | disconnect sender => exact fun socket hs => h socket (List.mem_filter.mp hs).1
  | joinBranch sender branchId =>
      exact roomed_update h (fun _ hs => roomed_onJoinBranch hs branchId) sender
  | leaveBranch sender branchId =>
      exact roomed_update h (fun _ hs => roomed_onLeaveBranch hs branchId) sender
  | relay message => exact h

-- The client of a socket follows its own events.

theorem step_own (h : event.sender = some id) :
    Client.step jwtVerify id client event = Client.own jwtVerify client event := if_pos h

theorem step_other (event : RealtimeEvent Payload) (h : event.sender ≠ some id) :
    Client.step jwtVerify id client event = client := if_neg h

theorem client_cons (socket : Socket) : Nsp.client (socket :: nsp) id =
    if socket.id = id then some socket.client else nsp.client id := by
  unfold Nsp.client
  by_cases hid : socket.id = id
  · rw [List.find?_cons_of_pos (by simpa using hid), if_pos hid, Option.map_some]
  · rw [List.find?_cons_of_neg (by simpa using hid), if_neg hid]

theorem client_onConnection (text : String) (user : AuthenticatedUser) :
    (Socket.onConnection id text user).client = { user, watches := fun _ => false } := by
  unfold Socket.client
  rw [user_onConnection]
  refine congrArg (Client.mk user) (funext fun branchId => ?_)
  rw [decide_eq_false_iff_not, mem_rooms_connection]
  rintro (h | h | ⟨h, -⟩)
  · exact id.ne_branchRoom branchId h.symm
  · exact userRoom_ne_branchRoom user.sub branchId h.symm
  · exact branchRoom_ne_ADMIN_ROOM branchId h

theorem client_onJoinBranch (socket : Socket) (branchId : Option String) :
    (socket.onJoinBranch branchId).client = socket.client.watch branchId true := by
  unfold Socket.client Client.watch
  rw [(onJoinBranch_same socket branchId).2.2]
  refine congrArg (Client.mk socket.user) (funext fun other => ?_)
  rw [Bool.eq_iff_iff, decide_eq_true_iff, mem_rooms_onJoinBranch]
  dsimp only
  split
  next h => exact iff_of_true (.inr ⟨other, h.1, h.2.symm, rfl⟩) rfl
  next h =>
    rw [decide_eq_true_iff, or_iff_left]
    rintro ⟨joined, hne, heq, hroom⟩
    obtain rfl := branchRoom_inj hroom
    exact h ⟨hne, heq.symm⟩

theorem client_onLeaveBranch (socket : Socket) (branchId : Option String) :
    (socket.onLeaveBranch branchId).client = socket.client.watch branchId false := by
  unfold Socket.client Client.watch
  rw [(onLeaveBranch_same socket branchId).2.2]
  refine congrArg (Client.mk socket.user) (funext fun other => ?_)
  rw [Bool.eq_iff_iff, decide_eq_true_iff, mem_rooms_onLeaveBranch]
  dsimp only
  split
  next h => exact iff_of_false (fun hleft => hleft.2 other h.1 h.2.symm rfl) Bool.false_ne_true
  next h =>
    rw [decide_eq_true_iff, and_iff_left]
    rintro left hne heq hroom
    obtain rfl := branchRoom_inj hroom
    exact h ⟨hne, heq.symm⟩

theorem client_isSome : (nsp.client id).isSome ↔ id ∈ nsp.map Socket.id := by
  simp [Nsp.client]

theorem client_connect (sender : Sid) (token : Option String) :
    (nsp.connect jwtVerify sender token).client id =
      Client.step jwtVerify id (nsp.client id) (.connect sender token : RealtimeEvent Payload) := by
  unfold Nsp.connect
  by_cases hid : sender = id
  · subst hid
    rw [step_own rfl]
    dsimp only [Client.own]
    cases hhandshake : Nsp.handshake jwtVerify token with
    | error err => simp [Except.toOption]
    | ok accepted =>
        dsimp only [Except.toOption, Option.map_some]
        split
        next hmem =>
          obtain ⟨connected, heq⟩ := Option.isSome_iff_exists.mp (client_isSome.mpr hmem)
          rw [heq]
          rfl
        next hmem =>
          rw [client_cons, id_onConnection, if_pos rfl, client_onConnection,
            Option.not_isSome_iff_eq_none.mp (mt client_isSome.mp hmem)]
          rfl
  · rw [step_other (.connect sender token) fun h => hid (Option.some.inj h)]
    split
    · rfl
    · split
      · rfl
      · rw [client_cons, id_onConnection, if_neg hid]

theorem client_disconnect (sender : Sid) : Nsp.client (nsp.filter (·.id ≠ sender)) id =
    Client.step jwtVerify id (nsp.client id) (.disconnect sender : RealtimeEvent Payload) := by
  unfold Nsp.client
  rw [List.find?_filter]
  by_cases hid : sender = id
  · subst hid
    rw [step_own rfl]
    simp [Client.own]
  · rw [step_other (.disconnect sender) fun h => hid (Option.some.inj h)]
    congr 1
    refine congrArg (fun test => nsp.find? test) (funext fun socket => ?_)
    by_cases hsocket : socket.id = id
    · simp [hsocket, Ne.symm hid]
    · simp [hsocket]

theorem find?_update (sender : Sid) {change : Socket → Socket}
    (hsame : ∀ socket, (change socket).Same socket) :
    (nsp.update sender change).find? (·.id = id) =
      (nsp.find? (·.id = id)).map fun socket => if sender = id then change socket else socket := by
  rw [Nsp.update, List.find?_map]
  have htest : ((fun socket : Socket => decide (socket.id = id)) ∘
      fun socket => if socket.id = sender then change socket else socket) = fun socket => decide (socket.id = id) := by
    refine funext fun socket => ?_
    dsimp only [Function.comp_apply]
    split
    · rw [(hsame socket).1]
    · rfl
  rw [htest]
  cases hfind : nsp.find? (·.id = id) with
  | none => rfl
  | some socket =>
      have hid : socket.id = id := by simpa using List.find?_some hfind
      rw [Option.map_some, Option.map_some, hid]
      simp only [eq_comm]

theorem client_update (sender : Sid) {change : Socket → Socket} {watching : Client → Client}
    (hsame : ∀ socket, (change socket).Same socket)
    (hclient : ∀ socket : Socket, (change socket).client = watching socket.client) :
    (nsp.update sender change).client id =
      if sender = id then (nsp.client id).map watching else nsp.client id := by
  unfold Nsp.client
  rw [find?_update sender hsame, Option.map_map]
  split
  · rw [Option.map_map]
    exact congrArg (Option.map · _) (funext hclient)
  · rfl

theorem client_step (event : RealtimeEvent Payload) : (nsp.step jwtVerify event).client id =
    Client.step jwtVerify id (nsp.client id) event := by
  cases event with
  | connect sender token => exact client_connect sender token
  | disconnect sender => exact client_disconnect sender
  | joinBranch sender branchId =>
      refine (client_update sender (onJoinBranch_same · branchId)
        (client_onJoinBranch · branchId)).trans ?_
      simp [Client.step, Client.own, RealtimeEvent.sender]
  | leaveBranch sender branchId =>
      refine (client_update sender (onLeaveBranch_same · branchId)
        (client_onLeaveBranch · branchId)).trans ?_
      simp [Client.step, Client.own, RealtimeEvent.sender]
  | relay message => rfl

theorem ids_update (sender : Sid) {change : Socket → Socket}
    (hsame : ∀ socket, (change socket).Same socket) :
    (nsp.update sender change).map Socket.id = nsp.map Socket.id := by
  rw [Nsp.update, List.map_map]
  refine List.map_congr_left fun socket _ => ?_
  rw [Function.comp_apply]
  split
  · exact (hsame socket).1
  · rfl

theorem nodup_step (h : (nsp.map Socket.id).Nodup) (event : RealtimeEvent Payload) :
    ((nsp.step jwtVerify event).map Socket.id).Nodup := by
  cases event with
  | connect sender token =>
      dsimp only [Nsp.step, Nsp.connect]
      split
      · exact h
      · split
        next => exact h
        next hfree =>
          rw [List.map_cons, List.nodup_cons, id_onConnection]
          exact ⟨hfree, h⟩
  | disconnect sender => exact h.sublist (List.filter_sublist.map Socket.id)
  | joinBranch sender branchId => exact (ids_update sender (onJoinBranch_same · branchId)).symm ▸ h
  | leaveBranch sender branchId =>
      exact (ids_update sender (onLeaveBranch_same · branchId)).symm ▸ h
  | relay message => exact h

theorem Mirrors.step (h : Mirrors id nsp client) (event : RealtimeEvent Payload) :
    Mirrors id (nsp.step jwtVerify event) (Client.step jwtVerify id client event) where
  unique := nodup_step h.unique event
  roomed := roomed_step h.roomed event
  same := by rw [client_step, h.same]

-- What a broadcast is to one socket.

theorem filter_emit (rooms : List String) (name : String) (payload : Payload) :
    (nsp.emit rooms name payload).filter (·.id = id) =
      if id ∈ rooms.flatMap nsp.members then [{ id, event := name, payload }] else [] := by
  have htest : ((fun delivery : Delivery Payload => decide (delivery.id = id)) ∘
      fun other => { id := other, event := name, payload }) = fun other => decide (other = id) := rfl
  rw [Nsp.emit, List.filter_map, htest, List.filter_eq, List.count_dedup]
  split <;> rfl

theorem mem_members_of_mem (hunique : (nsp.map Socket.id).Nodup) {socket : Socket}
    (hs : socket ∈ nsp) (room : String) : socket.id ∈ nsp.members room ↔ room ∈ socket.rooms := by
  rw [mem_members]
  constructor
  · rintro ⟨other, ho, hroom, hid⟩
    exact List.inj_on_of_nodup_map hunique ho hs hid ▸ hroom
  · exact fun h => ⟨socket, hs, h, rfl⟩

-- The rooms of a target are those of the clients that see it.
theorem emitEnvelope_rooms (nsp : Nsp) (name : String) (target : RealtimeTarget) (payload : Payload) :
    ∃ rooms, nsp.emitEnvelope name target payload = nsp.emit rooms name payload ∧
      ∀ socket : Socket, socket.Roomed →
        ((∃ room ∈ rooms, room ∈ socket.rooms) ↔ socket.client.sees target = true) := by
  cases target with
  | branch branchId =>
      refine ⟨[branchRoom branchId, ADMIN_ROOM], rfl, fun socket h => ?_⟩
      simp only [Client.sees, Bool.or_eq_true, decide_eq_true_eq]
      simp [Socket.client, h.admin, or_comm]
  | user userId =>
      refine ⟨[userRoom userId, ADMIN_ROOM], rfl, fun socket h => ?_⟩
      simp only [Client.sees, Bool.or_eq_true, decide_eq_true_eq]
      simp [Socket.client, h.admin, h.user]
  | admin =>
      refine ⟨[ADMIN_ROOM], rfl, fun socket h => ?_⟩
      simp only [Client.sees, decide_eq_true_eq]
      simp [Socket.client, h.admin]
  | other type => exact ⟨[], rfl, fun socket _ => by simp [Client.sees]⟩

theorem Mirrors.filter_emitEnvelope (h : Mirrors id nsp client) (name : String)
    (target : RealtimeTarget) (payload : Payload) :
    (nsp.emitEnvelope name target payload).filter (·.id = id) =
      if client.any (·.sees target) then [{ id, event := name, payload }] else [] := by
  obtain ⟨rooms, heq, hrooms⟩ := emitEnvelope_rooms nsp name target payload
  rw [heq, filter_emit]
  refine if_congr ?_ rfl rfl
  rw [List.mem_flatMap, ← h.same, Nsp.client]
  cases hfind : nsp.find? (·.id = id) with
  | none =>
      refine iff_of_false ?_ Bool.false_ne_true
      rintro ⟨room, -, hmember⟩
      obtain ⟨socket, hs, -, hid⟩ := mem_members.mp hmember
      simpa [hid] using List.find?_eq_none.mp hfind socket hs
  | some socket =>
      have hs := List.mem_of_find?_eq_some hfind
      obtain rfl : socket.id = id := by simpa using List.find?_some hfind
      simp only [mem_members_of_mem h.unique hs]
      exact hrooms socket (h.roomed socket hs)

theorem Mirrors.out (h : Mirrors id nsp client) (event : RealtimeEvent Payload) :
    (nsp.out event).filter (·.id = id) = Client.out id client event := by
  cases event with
  | relay message =>
      rcases message with _ | ⟨_ | name, _ | target, payload⟩
      case relay.some.some.some =>
        dsimp only [Nsp.out, Nsp.handle, Client.out]
        by_cases hname : name = ""
        · rw [if_pos hname, if_neg fun h => h.1 hname]
          rfl
        · rw [if_neg hname, h.filter_emitEnvelope]
          exact if_congr (and_iff_right hname).symm rfl rfl
      all_goals rfl
  | _ => rfl

theorem mirrors_start (id : Sid) : Mirrors id [] none where
  unique := List.nodup_nil
  roomed := by simp
  same := rfl

theorem filter_deliveries (events : List (RealtimeEvent Payload)) (id : Sid) :
    (Nsp.deliveries jwtVerify events).filter (·.id = id) =
      Client.deliveries jwtVerify id events := by
  rw [Nsp.deliveries, Machine.filter_outputs]
  exact Machine.outputs_simulation (Mirrors id) (mirrors_start id)
    (fun _ _ event h => h.step event) fun _ _ event h => h.out event

-- A client learns nothing of the events of the others.
theorem deliveries_concerns (events : List (RealtimeEvent Payload)) (id : Sid) :
    Client.deliveries jwtVerify id (events.filter (·.concerns id)) =
      Client.deliveries jwtVerify id events := by
  have hsender : ∀ event : RealtimeEvent Payload, event.concerns id = false →
      ∃ other, event.sender = some other ∧ other ≠ id := by
    intro event h
    simpa [RealtimeEvent.concerns, Option.all_eq_false] using h
  refine Machine.outputs_filter _ (fun client event h => ?_) fun client event h => ?_
  · obtain ⟨other, heq, hne⟩ := hsender event h
    exact step_other event fun hid => hne (Option.some.inj (heq.symm.trans hid))
  · obtain ⟨other, heq, -⟩ := hsender event h
    cases event with
    | relay message => cases heq
    | _ => rfl

-- Nothing is sent to a client that never connects.
theorem deliveries_stranger {events : List (RealtimeEvent Payload)}
    (h : ∀ event ∈ events, event.sender ≠ some id) : Client.deliveries jwtVerify id events = [] := by
  unfold Client.deliveries
  induction events with
  | nil => rfl
  | cons event rest ih =>
      obtain ⟨hevent, hrest⟩ := List.forall_mem_cons.mp h
      have hout : Client.out id none event = [] := by
        unfold Client.out
        split
        · exact if_neg fun h => Bool.false_ne_true h.2
        · rfl
      rw [Machine.outputs, hout, step_other event hevent, ih hrest, List.append_nil]

theorem deliveries_alone (events : List (RealtimeEvent Payload)) (id : Sid) :
    (Nsp.deliveries jwtVerify events).filter (·.id = id) =
      Nsp.deliveries jwtVerify (events.filter (·.concerns id)) := by
  rw [filter_deliveries, ← deliveries_concerns, ← filter_deliveries, List.filter_eq_self]
  intro delivery hd
  by_contra hid
  rw [decide_eq_true_eq] at hid
  have hown : delivery ∈ (Nsp.deliveries jwtVerify (events.filter (·.concerns id))).filter
      (·.id = delivery.id) := List.mem_filter.mpr ⟨hd, decide_eq_true rfl⟩
  rw [filter_deliveries, deliveries_stranger] at hown
  · exact List.not_mem_nil hown
  · intro event he hsender
    have hconcerns := (List.mem_filter.mp he).2
    rw [RealtimeEvent.concerns, hsender] at hconcerns
    exact hid (of_decide_eq_true hconcerns)

theorem served_alone (jwtVerify : String → Except String JwtPayload)
    (events : List (RealtimeEvent Payload)) (id : Sid) : Served jwtVerify events id where
  own := filter_deliveries events id
  alone := deliveries_alone events id

end SmartParking.Realtime
