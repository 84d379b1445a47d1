import SmartParking.Realtime.Isolation
import Mathlib.Data.List.Nodup

namespace SmartParking.Realtime

variable {Payload : Type} {jwtVerify : String → Except String JwtPayload}
  {past : List (RealtimeEvent Payload)} {event : RealtimeEvent Payload} {nsp : Nsp}
  {socket : Socket} {room : String}

-- Rooms of different kinds have different names.

theorem branchRoom_inj {branchId other : String} (h : branchRoom branchId = branchRoom other) :
    branchId = other := by
  have hlist := congrArg String.toList h
  simp only [branchRoom, String.toList_append, List.append_cancel_left_eq] at hlist
  exact String.toList_inj.mp hlist

theorem userRoom_inj {userId other : String} (h : userRoom userId = userRoom other) :
    userId = other := by
  have hlist := congrArg String.toList h
  simp only [userRoom, String.toList_append, List.append_cancel_left_eq] at hlist
  exact String.toList_inj.mp hlist

theorem userRoom_ne_branchRoom (userId branchId : String) :
    userRoom userId ≠ branchRoom branchId := by
  intro h
  have hhead := congrArg (·.toList.head?) h
  simp [userRoom, branchRoom] at hhead

theorem userRoom_ne_ADMIN_ROOM (userId : String) : userRoom userId ≠ ADMIN_ROOM := by
  intro h
  have hhead := congrArg (·.toList.head?) h
  simp [userRoom, ADMIN_ROOM] at hhead

theorem branchRoom_ne_ADMIN_ROOM (branchId : String) : branchRoom branchId ≠ ADMIN_ROOM := by
  intro h
  have hhead := congrArg (·.toList.head?) h
  simp [branchRoom, ADMIN_ROOM] at hhead

theorem Sid.colon_notMem (id : Sid) : ':' ∉ id.text.toList := by
  intro h
  have := id.generated ':' h
  revert this
  decide

theorem Sid.ne_userRoom (id : Sid) (userId : String) : id.text ≠ userRoom userId := by
  intro h
  refine id.colon_notMem ?_
  simp [h, userRoom]

theorem Sid.ne_branchRoom (id : Sid) (branchId : String) : id.text ≠ branchRoom branchId := by
  intro h
  refine id.colon_notMem ?_
  simp [h, branchRoom]

theorem Sid.ne_ADMIN_ROOM (id : Sid) : id.text ≠ ADMIN_ROOM := by
  intro h
  have hlength := id.length_eq
  rw [h] at hlength
  exact absurd hlength (by decide)

-- What a socket of each kind of room is entitled to.

theorem Entitled.user {userId : String} (h : Entitled past socket (userRoom userId)) :
    socket.user.sub = userId := by
  rcases h with h | h | ⟨h, -⟩ | ⟨branchId, -, h, -⟩
  · exact absurd h.symm (socket.id.ne_userRoom userId)
  · exact (userRoom_inj h).symm
  · exact absurd h (userRoom_ne_ADMIN_ROOM userId)
  · exact absurd h (userRoom_ne_branchRoom userId branchId)

theorem Entitled.branch {branchId : String} (h : Entitled past socket (branchRoom branchId)) :
    JoinedSince past socket.id branchId := by
  rcases h with h | h | ⟨h, -⟩ | ⟨other, -, h, hjoined⟩
  · exact absurd h.symm (socket.id.ne_branchRoom branchId)
  · exact absurd h.symm (userRoom_ne_branchRoom _ branchId)
  · exact absurd h (branchRoom_ne_ADMIN_ROOM branchId)
  · exact branchRoom_inj h ▸ hjoined

theorem Entitled.admin (h : Entitled past socket ADMIN_ROOM) : socket.user.role = .ADMIN := by
  rcases h with h | h | ⟨-, h⟩ | ⟨branchId, -, h, -⟩
  · exact absurd h.symm socket.id.ne_ADMIN_ROOM
  · exact absurd h.symm (userRoom_ne_ADMIN_ROOM _)
  · exact h
  · exact absurd h.symm (branchRoom_ne_ADMIN_ROOM branchId)

-- A room is kept by every event but the socket's own leave of it and its disconnect.
theorem Entitled.keep (h : Entitled past socket room)
    (hleave : ∀ branchId ≠ "", room = branchRoom branchId →
      event ≠ .leaveBranch socket.id (some branchId))
    (hdisconnect : event ≠ .disconnect socket.id) : Entitled (past ++ [event]) socket room := by
  rcases h with h | h | h | ⟨branchId, hne, hroom, hjoined⟩
  · exact .inl h
  · exact .inr (.inl h)
  · exact .inr (.inr (.inl h))
  · refine .inr (.inr (.inr ⟨branchId, hne, hroom, Machine.since_append.mpr (.inr ⟨hjoined, ?_⟩)⟩))
    exact not_or.mpr ⟨hleave branchId hne hroom, hdisconnect⟩

-- What the two handlers leave of the socket that sends the message.

def Socket.Same (socket other : Socket) : Prop :=
  socket.id = other.id ∧ socket.token = other.token ∧ socket.user = other.user

theorem onJoinBranch_same (socket : Socket) (branchId : Option String) :
    (socket.onJoinBranch branchId).Same socket := by
  cases branchId with
  | none => exact ⟨rfl, rfl, rfl⟩
  | some id =>
      dsimp only [Socket.onJoinBranch]
      split <;> exact ⟨rfl, rfl, rfl⟩

theorem onLeaveBranch_same (socket : Socket) (branchId : Option String) :
    (socket.onLeaveBranch branchId).Same socket := by
  cases branchId with
  | none => exact ⟨rfl, rfl, rfl⟩
  | some id =>
      dsimp only [Socket.onLeaveBranch]
      split <;> exact ⟨rfl, rfl, rfl⟩

theorem mem_rooms_of_onJoinBranch {branchId : Option String}
    (h : room ∈ (socket.onJoinBranch branchId).rooms) :
    room ∈ socket.rooms ∨ ∃ id ≠ "", branchId = some id ∧ room = branchRoom id := by
  cases branchId with
  | none => exact .inl h
  | some id =>
      dsimp only [Socket.onJoinBranch] at h
      split at h
      next => exact .inl h
      next hid =>
        rcases List.mem_insert_iff.mp h with rfl | h
        · exact .inr ⟨id, hid, rfl, rfl⟩
        · exact .inl h

theorem mem_rooms_of_onLeaveBranch {branchId : Option String}
    (h : room ∈ (socket.onLeaveBranch branchId).rooms) :
    room ∈ socket.rooms ∧ ∀ id ≠ "", branchId = some id → room ≠ branchRoom id := by
  cases branchId with
  | none => exact ⟨h, fun _ _ h => nomatch h⟩
  | some id =>
      dsimp only [Socket.onLeaveBranch] at h
      split at h
      next hid => exact ⟨h, fun other hne heq => absurd ((Option.some.inj heq).symm.trans hid) hne⟩
      next =>
        obtain ⟨hroom, hne⟩ := List.mem_filter.mp h
        refine ⟨hroom, fun other _ heq => ?_⟩
        cases heq
        exact of_decide_eq_true hne

theorem mem_rooms_onConnection {id : Sid} {token : String} {user : AuthenticatedUser}
    (h : room ∈ (Socket.onConnection id token user).rooms) :
    room = id.text ∨ room = userRoom user.sub ∨ (room = ADMIN_ROOM ∧ user.role = .ADMIN) := by
  unfold Socket.onConnection Socket.join at h
  split at h
  next hadmin =>
    rcases List.mem_insert_iff.mp h with h | h
    · exact .inr (.inr ⟨h, hadmin⟩)
    · rcases List.mem_insert_iff.mp h with h | h
      · exact .inr (.inl h)
      · exact .inl (List.mem_singleton.mp h)
  next =>
    rcases List.mem_insert_iff.mp h with h | h
    · exact .inr (.inl h)
    · exact .inl (List.mem_singleton.mp h)

@[simp] theorem id_onConnection (id : Sid) (token : String) (user : AuthenticatedUser) :
    (Socket.onConnection id token user).id = id := by
  unfold Socket.onConnection
  split <;> rfl

@[simp] theorem token_onConnection (id : Sid) (token : String) (user : AuthenticatedUser) :
    (Socket.onConnection id token user).token = token := by
  unfold Socket.onConnection
  split <;> rfl

@[simp] theorem user_onConnection (id : Sid) (token : String) (user : AuthenticatedUser) :
    (Socket.onConnection id token user).user = user := by
  unfold Socket.onConnection
  split <;> rfl

theorem verify_of_handshake {token : Option String} {text : String} {user : AuthenticatedUser}
    (h : Nsp.handshake jwtVerify token = .ok (text, user)) : verify jwtVerify text = .ok user := by
  unfold Nsp.handshake at h
  split at h
  next => cases h
  next token =>
    split at h
    next => cases h
    next =>
      split at h
      next => cases h
      next hverify =>
        cases h
        exact hverify

namespace Guarded

-- An event that neither leaves a room nor disconnects.
theorem entitled_of_quiet (hg : Guarded jwtVerify past nsp)
    (hleave : ∀ id branchId, event ≠ .leaveBranch id branchId)
    (hdisconnect : ∀ id, event ≠ .disconnect id) (hs : socket ∈ nsp) (hroom : room ∈ socket.rooms) :
    Entitled (past ++ [event]) socket room :=
  (hg.entitled socket hs room hroom).keep (fun _ _ _ => hleave _ _) (hdisconnect _)

theorem connect (hg : Guarded jwtVerify past nsp) (id : Sid) (token : Option String) :
    Guarded jwtVerify (past ++ [.connect id token]) (nsp.connect jwtVerify id token) := by
  have hold : ∀ socket ∈ nsp, ∀ room ∈ socket.rooms,
      Entitled (past ++ [.connect id token]) socket room := fun socket hs room hroom =>
    hg.entitled_of_quiet (fun _ _ => nofun) (fun _ => nofun) hs hroom
  unfold Nsp.connect
  split
  next => exact ⟨hg.unique, hg.verified, hold⟩
  next text user hhandshake =>
    split
    next => exact ⟨hg.unique, hg.verified, hold⟩
    next hfree =>
      constructor
      case unique =>
        rw [List.map_cons, List.nodup_cons, id_onConnection]
        exact ⟨hfree, hg.unique⟩
      case verified =>
        rintro socket (_ | ⟨_, hs⟩)
        · rw [token_onConnection, user_onConnection]
          exact verify_of_handshake hhandshake
        · exact hg.verified socket hs
      case entitled =>
        rintro socket (_ | ⟨_, hs⟩) room hroom
        · unfold Entitled
          rw [id_onConnection, user_onConnection]
          rcases mem_rooms_onConnection hroom with h | h | h
          · exact .inl h
          · exact .inr (.inl h)
          · exact .inr (.inr (.inl h))
        · exact hold socket hs room hroom

theorem disconnect (hg : Guarded jwtVerify past nsp) (id : Sid) :
    Guarded jwtVerify (past ++ [.disconnect id]) (nsp.filter (·.id ≠ id)) where
  unique := hg.unique.sublist (List.filter_sublist.map Socket.id)
  verified socket hs := hg.verified socket (List.mem_filter.mp hs).1
  entitled socket hs room hroom := by
    obtain ⟨hs, hne⟩ := List.mem_filter.mp hs
    refine (hg.entitled socket hs room hroom).keep (fun _ _ _ => nofun) fun heq => ?_
    cases heq
    exact of_decide_eq_true hne rfl

-- A message changes only the rooms of its own socket.
theorem update (hg : Guarded jwtVerify past nsp) (id : Sid) {change : Socket → Socket}
    (hsame : ∀ socket, (change socket).Same socket)
    (hown : ∀ socket ∈ nsp, socket.id = id → ∀ room ∈ (change socket).rooms,
      Entitled (past ++ [event]) socket room)
    (hother : ∀ socket ∈ nsp, socket.id ≠ id → ∀ room ∈ socket.rooms,
      Entitled (past ++ [event]) socket room) :
    Guarded jwtVerify (past ++ [event]) (nsp.update id change) := by
  constructor
  case unique =>
    have hids : (nsp.update id change).map Socket.id = nsp.map Socket.id := by
      rw [Nsp.update, List.map_map]
      refine List.map_congr_left fun socket _ => ?_
      rw [Function.comp_apply]
      split
      · exact (hsame socket).1
      · rfl
    exact hids ▸ hg.unique
  case verified =>
    intro socket hmem
    obtain ⟨socket, hs, rfl⟩ := List.mem_map.mp hmem
    split
    · rw [(hsame socket).2.1, (hsame socket).2.2]
      exact hg.verified socket hs
    · exact hg.verified socket hs
  case entitled =>
    intro socket hmem room hroom
    obtain ⟨socket, hs, rfl⟩ := List.mem_map.mp hmem
    split at hroom
    next hid =>
      rw [if_pos hid]
      unfold Entitled
      rw [(hsame socket).1, (hsame socket).2.2]
      exact hown socket hs hid room hroom
    next hid =>
      rw [if_neg hid]
      exact hother socket hs hid room hroom

theorem joinBranch (hg : Guarded jwtVerify past nsp) (id : Sid) (branchId : Option String) :
    Guarded jwtVerify (past ++ [.joinBranch id branchId])
      (nsp.update id (·.onJoinBranch branchId)) := by
  have hold : ∀ socket ∈ nsp, ∀ room ∈ socket.rooms,
      Entitled (past ++ [.joinBranch id branchId]) socket room := fun socket hs room hroom =>
    hg.entitled_of_quiet (fun _ _ => nofun) (fun _ => nofun) hs hroom
  refine hg.update id (onJoinBranch_same · branchId) ?_ fun socket hs _ => hold socket hs
  rintro socket hs rfl room hroom
  rcases mem_rooms_of_onJoinBranch hroom with hroom | ⟨branchId, hne, rfl, rfl⟩
  · exact hold socket hs room hroom
  · exact .inr (.inr (.inr ⟨branchId, hne, rfl, Machine.since_append.mpr (.inl rfl)⟩))

theorem leaveBranch (hg : Guarded jwtVerify past nsp) (id : Sid) (branchId : Option String) :
    Guarded jwtVerify (past ++ [.leaveBranch id branchId])
      (nsp.update id (·.onLeaveBranch branchId)) := by
  refine hg.update id (onLeaveBranch_same · branchId) ?_ ?_
  · rintro socket hs rfl room hroom
    obtain ⟨hroom, hleft⟩ := mem_rooms_of_onLeaveBranch hroom
    refine (hg.entitled socket hs room hroom).keep (fun other hne hname heq => ?_) nofun
    cases heq
    exact hleft other hne rfl hname
  · intro socket hs hid room hroom
    refine (hg.entitled socket hs room hroom).keep (fun other _ _ heq => ?_) nofun
    cases heq
    exact hid rfl

theorem step (hg : Guarded jwtVerify past nsp) (event : RealtimeEvent Payload) :
    Guarded jwtVerify (past ++ [event]) (nsp.step jwtVerify event) := by
  cases event with
  | connect id token => exact hg.connect id token
  | disconnect id => exact hg.disconnect id
  | joinBranch id branchId => exact hg.joinBranch id branchId
  | leaveBranch id branchId => exact hg.leaveBranch id branchId
  | relay message =>
      exact ⟨hg.unique, hg.verified, fun socket hs room hroom =>
        hg.entitled_of_quiet (fun _ _ => nofun) (fun _ => nofun) hs hroom⟩

theorem play (past : List (RealtimeEvent Payload)) :
    Guarded jwtVerify past (Machine.play (Nsp.step jwtVerify) [] past) := by
  induction past using List.reverseRecOn with
  | nil => exact ⟨List.nodup_nil, nofun, nofun⟩
  | append_singleton past event ih =>
      rw [Machine.play_append]
      exact ih.step event

end Guarded

-- Who is reached by a broadcast.

theorem mem_members {id : Sid} : id ∈ nsp.members room ↔
    ∃ socket ∈ nsp, room ∈ socket.rooms ∧ socket.id = id := by
  simp [Nsp.members, and_assoc]

theorem mem_emit {rooms : List String} {name : String} {payload : Payload}
    {delivery : Delivery Payload} (h : delivery ∈ nsp.emit rooms name payload) :
    delivery.event = name ∧ delivery.payload = payload ∧
      ∃ room ∈ rooms, ∃ socket ∈ nsp, room ∈ socket.rooms ∧ socket.id = delivery.id := by
  obtain ⟨id, hid, rfl⟩ := List.mem_map.mp h
  obtain ⟨room, hroom, hid⟩ := List.mem_flatMap.mp (List.mem_dedup.mp hid)
  exact ⟨rfl, rfl, room, hroom, mem_members.mp hid⟩

theorem nodup_emit (nsp : Nsp) (rooms : List String) (name : String) (payload : Payload) :
    ((nsp.emit rooms name payload).map Delivery.id).Nodup := by
  rw [Nsp.emit, List.map_map]
  simpa [Function.comp_def] using List.nodup_dedup (rooms.flatMap nsp.members)

-- The rooms of a target, which are those an envelope is emitted to.
theorem emitEnvelope_eq (nsp : Nsp) (name : String) (target : RealtimeTarget) (payload : Payload) :
    ∃ rooms, nsp.emitEnvelope name target payload = nsp.emit rooms name payload ∧
      ∀ past : List (RealtimeEvent Payload), ∀ room ∈ rooms, ∀ socket,
        Entitled past socket room → MaySee past socket target := by
  cases target with
  | branch branchId =>
      refine ⟨[branchRoom branchId, ADMIN_ROOM], rfl, fun past room hroom socket h => ?_⟩
      rcases List.mem_pair.mp hroom with rfl | rfl
      · exact .inr h.branch
      · exact .inl h.admin
  | user userId =>
      refine ⟨[userRoom userId, ADMIN_ROOM], rfl, fun past room hroom socket h => ?_⟩
      rcases List.mem_pair.mp hroom with rfl | rfl
      · exact .inl h.user
      · exact .inr h.admin
  | admin =>
      refine ⟨[ADMIN_ROOM], rfl, fun past room hroom socket h => ?_⟩
      exact (List.mem_singleton.mp hroom ▸ h : Entitled past socket ADMIN_ROOM).admin
  | other type => exact ⟨[], rfl, fun _ _ h => absurd h List.not_mem_nil⟩

-- A message that delivers anything is an envelope with an event and a target.
theorem handle_cases (nsp : Nsp) (message : Option (RealtimeEventEnvelope Payload)) :
    nsp.handle message = [] ∨ ∃ envelope name target, message = some envelope ∧
      envelope.event = some name ∧ envelope.target = some target ∧
        nsp.handle message = nsp.emitEnvelope name target envelope.payload := by
  unfold Nsp.handle
  split
  next => exact .inl rfl
  next name target payload =>
    split
    next => exact .inl rfl
    next => exact .inr ⟨_, name, target, rfl, rfl, rfl, rfl⟩
  next => exact .inl rfl

theorem isolated_relay (jwtVerify : String → Except String JwtPayload)
    (past : List (RealtimeEvent Payload)) (message : Option (RealtimeEventEnvelope Payload)) :
    Isolated jwtVerify past message (Machine.play (Nsp.step jwtVerify) [] past) := by
  have hg : Guarded jwtVerify past (Machine.play (Nsp.step jwtVerify) [] past) :=
    Guarded.play past
  revert hg
  generalize Machine.play (Nsp.step jwtVerify) [] past = nsp
  intro hg
  rcases handle_cases nsp message with h | ⟨envelope, name, target, rfl, hname, htarget, h⟩
  · constructor <;> simp [h]
  obtain ⟨rooms, heq, hsee⟩ := emitEnvelope_eq nsp name target envelope.payload
  rw [heq] at h
  constructor
  case once => exact h ▸ nodup_emit nsp rooms name envelope.payload
  case connected =>
    intro delivery hd
    obtain ⟨-, -, room, -, socket, hs, -, hid⟩ := mem_emit (h ▸ hd)
    exact hid ▸ List.mem_map_of_mem hs
  case seen =>
    intro delivery hd
    obtain ⟨hevent, hpayload, room, hroom, socket, hs, hmember, hid⟩ := mem_emit (h ▸ hd)
    refine ⟨envelope, target, rfl, htarget, hevent ▸ hname, hpayload.symm, fun other ho hoid => ?_⟩
    obtain rfl : other = socket :=
      List.inj_on_of_nodup_map hg.unique ho hs (hoid.trans hid.symm)
    exact ⟨hg.verified other ho, hsee past room hroom other (hg.entitled other ho room hmember)⟩

end SmartParking.Realtime
