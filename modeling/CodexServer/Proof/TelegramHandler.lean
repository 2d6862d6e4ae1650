import CodexServer.TelegramHandler

/-!
# Whose session, and whose sidecar

A session belongs to whoever opened it, and carries the role that this user had then. It is the right
one for a message as long as the sender is that user, owns the chat row, and has kept the role.
-/

open Transition

namespace CodexServer.TelegramHandler

/-! ### What is relied on -/

/-- The session runs its turns as an admin who is this user. -/
def isAdminSession (userId : Nat) (session : ChatSession) : Bool :=
  session.isAdmin && session.dbUserId == userId

def isAdminTurn (userId : Nat) (row : TurnRow) : Bool :=
  normalize row.sidecar == .admin && row.userId == userId

/-- What a handler has in hand and has not used yet runs as this admin. -/
def Phase.reliesOn (userId : Nat) : Phase → Bool
  | .committing _ _ boot => isAdminSession userId (SessionStore.buildSession boot)
  | .reserving _ session | .checking _ session | .creating _ session | .opening session _ =>
      isAdminSession userId session
  | .steering _ session active | .interrupting _ session active =>
      isAdminSession userId session || isAdminTurn userId active
  | .received | .preparing .. | .claiming _ | .bootstrapping .. | .waiting .. | .running _
  | .ended => false

def Phase.waitsFor (attempt : Nat) : Phase → Bool
  | .waiting _ waited => waited == attempt
  | _ => false

namespace World

variable (world : World)

/-- Somebody may still get the session of this future. -/
def inUse (attempt : Nat) : Bool :=
  world.store.isCached attempt || world.handlers.any fun handler => handler.phase.waitsFor attempt

/-- A session that is cached or in some handler's hands, or an active turn, runs as this admin. -/
def reliesOn (userId : Nat) : Bool :=
  (world.handlers.any fun handler => handler.phase.reliesOn userId) ||
    (world.turns.any fun row => row.status.isActive && isAdminTurn userId row) ||
    (List.range world.store.attempts.length).any fun attempt =>
      world.inUse attempt &&
        ((world.store.future? attempt).bind SessionFuture.result?).any (isAdminSession userId)

/-- The chat row of the message is the sender's own. -/
def ownsChat (message : Message) : Bool :=
  (world.directory.chatByKey? message.key).any fun chat =>
    (world.directory.userByTg? message.fromUserId).any fun user => chat.userId == user.id

/-- The future that the message would wait for was made for a message of the same sender. -/
def opensOwn (message : Message) : Bool :=
  match world.store.claimSlot message.key with
  | .joined attempt =>
      (world.store.attempts[attempt]?).any fun entry => entry.bootstrapArg == message.fromUserId
  | .created _ | .raised => true

end World

/-- A message takes a session in the sender's own chat row that nobody else has opened, and no admin
loses the role while something runs as this admin. -/
def undisturbed (world : World) : Action → Bool
  | .claimSlot id =>
      (world.handlers[id]?).all fun handler =>
        match handler.phase with
        | .claiming (.turn _) => world.ownsChat handler.message && world.opensOwn handler.message
        | _ => true
  | .setRole userId role => role == .admin || !world.reliesOn userId
  | _ => true

/-! ### The directory -/

namespace Directory

/-- Ids are positions, and no two rows have the same Telegram user or the same chat and topic. -/
structure Sound (directory : Directory) : Prop where
  userIds : ∀ {index : Nat} {user : UserRow}, directory.users[index]? = some user → user.id = index
  tgUserIds : ∀ {user other : UserRow}, user ∈ directory.users → other ∈ directory.users →
    user.tgUserId = other.tgUserId → user = other
  chatIds : ∀ {index : Nat} {chat : ChatRow}, directory.chats[index]? = some chat → chat.id = index

/-- What later directories keep. -/
structure Extends (before after : Directory) : Prop where
  userByTg : ∀ {tgUserId user}, before.userByTg? tgUserId = some user →
    ∃ later, after.userByTg? tgUserId = some later ∧ later.id = user.id
  chatByKey : ∀ {key chat}, before.chatByKey? key = some chat → after.chatByKey? key = some chat
  chatById : ∀ {id chat}, before.chatById? id = some chat → after.chatById? id = some chat

def IsAdmin (directory : Directory) (userId : Nat) : Prop :=
  ∃ user ∈ directory.users, user.id = userId ∧ user.role = .admin

variable {directory before middle after : Directory} {adminUserIds : List Nat} {tgUserId userId : Nat}
  {key : TGSessionKey} {role : UserRole} {user : UserRow} {chat : ChatRow}

theorem Extends.refl (directory : Directory) : Extends directory directory where
  userByTg h := ⟨_, h, rfl⟩
  chatByKey h := h
  chatById h := h

theorem Extends.trans (hfirst : Extends before middle) (hsecond : Extends middle after) :
    Extends before after where
  userByTg h := by
    obtain ⟨later, hlater, hid⟩ := hfirst.userByTg h
    obtain ⟨last, hlast, hlastId⟩ := hsecond.userByTg hlater
    exact ⟨last, hlast, hlastId.trans hid⟩
  chatByKey h := hsecond.chatByKey (hfirst.chatByKey h)
  chatById h := hsecond.chatById (hfirst.chatById h)

theorem mem_of_userByTg (h : directory.userByTg? tgUserId = some user) :
    user ∈ directory.users ∧ user.tgUserId = tgUserId :=
  ⟨List.mem_of_find?_eq_some h, by simpa using List.find?_some h⟩

theorem mem_of_chatByKey (h : directory.chatByKey? key = some chat) :
    chat ∈ directory.chats ∧ chat.key = key :=
  ⟨List.mem_of_find?_eq_some h, by simpa using List.find?_some h⟩

theorem Sound.user_eq (hsound : directory.Sound) {other : UserRow} (hmem : user ∈ directory.users)
    (hother : other ∈ directory.users) (hid : user.id = other.id) : user = other := by
  obtain ⟨index, hindex⟩ := List.mem_iff_getElem?.mp hmem
  obtain ⟨otherIndex, hotherIndex⟩ := List.mem_iff_getElem?.mp hother
  have hsame : index = otherIndex :=
    (hsound.userIds hindex).symm.trans (hid.trans (hsound.userIds hotherIndex))
  subst hsame
  exact Option.some.inj (hindex.symm.trans hotherIndex)

theorem Sound.chatById_of_mem (hsound : directory.Sound) (hmem : chat ∈ directory.chats) :
    directory.chatById? chat.id = some chat := by
  have hfound : (directory.chatById? chat.id).isSome :=
    List.find?_isSome.mpr ⟨chat, hmem, by simp⟩
  obtain ⟨found, hfound⟩ := Option.isSome_iff_exists.mp hfound
  have hid : found.id = chat.id := by simpa using List.find?_some hfound
  obtain ⟨index, hindex⟩ := List.mem_iff_getElem?.mp hmem
  obtain ⟨other, hother⟩ := List.mem_iff_getElem?.mp (List.mem_of_find?_eq_some hfound)
  have hsame : index = other :=
    (hsound.chatIds hindex).symm.trans (hid.symm.trans (hsound.chatIds hother))
  subst hsame
  exact hfound.trans (hother.symm.trans hindex)

/-- The row that is inserted gets the next position as its id. -/
theorem ids_append {α : Type} {id : α → Nat} {rows : List α} {row : α}
    (hids : ∀ {index item}, rows[index]? = some item → id item = index)
    (hrow : id row = rows.length) {index : Nat} {item : α}
    (hitem : (rows ++ [row])[index]? = some item) : id item = index := by
  rcases Nat.lt_or_ge index rows.length with hlt | hge
  · exact hids (by simpa [List.getElem?_append_left hlt] using hitem)
  · rw [List.getElem?_append_right hge] at hitem
    obtain ⟨hzero, rfl⟩ : index - rows.length = 0 ∧ row = item := by
      cases hdifference : index - rows.length with
      | zero => exact ⟨rfl, by simpa [hdifference] using hitem⟩
      | succ _ => simp [hdifference] at hitem
    omega

theorem find_append {α : Type} {p : α → Bool} {rows : List α} {row found : α}
    (h : rows.find? p = some found) : (rows ++ [row]).find? p = some found := by
  simp [List.find?_append, h]

/-! #### What the services do -/

theorem getOrCreateByTg_spec (hsound : directory.Sound)
    (h : directory.getOrCreateByTg adminUserIds tgUserId = (user, after)) :
    after.Sound ∧ Extends directory after ∧ after.userByTg? tgUserId = some user ∧
      ∀ {userId}, directory.IsAdmin userId → after.IsAdmin userId := by
  unfold getOrCreateByTg at h
  cases hfound : directory.userByTg? tgUserId with
  | some found =>
      rw [hfound] at h
      cases h
      exact ⟨hsound, .refl directory, hfound, id⟩
  | none =>
      rw [hfound] at h
      cases h
      have hnew : ∀ user ∈ directory.users, user.tgUserId ≠ tgUserId := by
        simpa [userByTg?] using hfound
      refine ⟨⟨fun h => ids_append hsound.userIds rfl h, ?_, hsound.chatIds⟩,
        ⟨fun h => ⟨_, find_append h, rfl⟩, id, id⟩, ?_, ?_⟩
      · intro user other huser hother hsame
        rcases List.mem_append.mp huser with huser | huser <;>
          rcases List.mem_append.mp hother with hother | hother
        · exact hsound.tgUserIds huser hother hsame
        · obtain rfl := List.mem_singleton.mp hother
          exact absurd hsame (hnew user huser)
        · obtain rfl := List.mem_singleton.mp huser
          exact absurd hsame.symm (hnew other hother)
        · rw [List.mem_singleton.mp huser, List.mem_singleton.mp hother]
      · have hnone : directory.users.find? (fun user => decide (user.tgUserId = tgUserId)) = none :=
          hfound
        simp [userByTg?, List.find?_append, hnone]
      · rintro userId ⟨user, hmem, hrow⟩
        exact ⟨user, List.mem_append_left _ hmem, hrow⟩

theorem getOrCreateForTg_spec (hsound : directory.Sound)
    (h : directory.getOrCreateForTg userId key = (chat, after)) :
    after.Sound ∧ Extends directory after ∧ after.chatByKey? key = some chat ∧
      after.users = directory.users := by
  unfold getOrCreateForTg at h
  cases hfound : directory.chatByKey? key with
  | some found =>
      rw [hfound] at h
      cases h
      exact ⟨hsound, .refl directory, hfound, rfl⟩
  | none =>
      rw [hfound] at h
      cases h
      refine ⟨⟨hsound.userIds, hsound.tgUserIds, fun h => ids_append hsound.chatIds rfl h⟩,
        ⟨fun h => ⟨_, h, rfl⟩, find_append, find_append⟩, ?_, rfl⟩
      have hnone : directory.chats.find? (fun chat => decide (chat.key = key)) = none := hfound
      simp [chatByKey?, List.find?_append, hnone]

theorem setRole_spec (hsound : directory.Sound) :
    (directory.setRole userId role).Sound ∧ Extends directory (directory.setRole userId role) ∧
      ∀ {other}, directory.IsAdmin other → (other = userId → role = .admin) →
        (directory.setRole userId role).IsAdmin other := by
  let rewrite : UserRow → UserRow := fun user =>
    if user.id = userId then { user with role := role } else user
  have hid : ∀ user, (rewrite user).id = user.id := by
    intro user
    simp only [rewrite]
    split <;> rfl
  have htg : ∀ user, (rewrite user).tgUserId = user.tgUserId := by
    intro user
    simp only [rewrite]
    split <;> rfl
  refine ⟨⟨?_, ?_, hsound.chatIds⟩, ⟨?_, id, id⟩, ?_⟩
  · intro index user huser
    obtain ⟨original, horiginal, rfl⟩ := List.getElem?_map .. ▸ huser |> Option.map_eq_some_iff.mp
    exact (hid original).trans (hsound.userIds horiginal)
  · intro user other huser hother hsame
    obtain ⟨original, horiginal, rfl⟩ := List.mem_map.mp huser
    obtain ⟨otherOriginal, hotherOriginal, rfl⟩ := List.mem_map.mp hother
    have heq := hsound.tgUserIds horiginal hotherOriginal
      ((htg original).symm.trans (hsame.trans (htg otherOriginal)))
    rw [heq]
  · intro tgUserId user hfound
    refine ⟨rewrite user, ?_, hid user⟩
    have hpredicate : (fun user : UserRow => decide (user.tgUserId = tgUserId)) ∘ rewrite =
        fun user => decide (user.tgUserId = tgUserId) := by
      funext user
      simp only [Function.comp, htg]
    have hfound : directory.users.find? (fun user => decide (user.tgUserId = tgUserId)) =
        some user := hfound
    change (directory.users.map rewrite).find? _ = _
    rw [List.find?_map, hpredicate, hfound]
    rfl
  · rintro other ⟨user, hmem, rfl, hadmin⟩ hrole
    refine ⟨rewrite user, List.mem_map_of_mem hmem, hid user, ?_⟩
    simp only [rewrite]
    split
    · rename_i hsame
      exact hrole hsame
    · exact hadmin

/-! #### Who owns what -/

/-- The sender's own user, in a chat row that is the sender's own. -/
def Owns (directory : Directory) (sender userId chatId : Nat) : Prop :=
  ∃ user, directory.userByTg? sender = some user ∧ user.id = userId ∧
    ∃ chat, directory.chatById? chatId = some chat ∧ chat.userId = userId

def OwnsKey (directory : Directory) (sender : Nat) (key : TGSessionKey) : Prop :=
  ∃ user, directory.userByTg? sender = some user ∧
    ∃ chat, directory.chatByKey? key = some chat ∧ chat.userId = user.id

/-- A session is that of the user who opened it, in the chat row of its key. -/
def Opened (directory : Directory) (opener : Nat) (key : TGSessionKey) (session : ChatSession) :
    Prop :=
  (∃ user, directory.userByTg? opener = some user ∧ user.id = session.dbUserId) ∧
    ∃ chat, directory.chatByKey? key = some chat ∧ chat.id = session.dbChatId

/-- A turn runs as the owner of its chat row. -/
def OwnsTurn (directory : Directory) (row : TurnRow) : Prop :=
  ∃ chat, directory.chatById? row.chatId = some chat ∧ chat.userId = row.userId

variable {sender chatId : Nat} {session : ChatSession} {row : TurnRow}

theorem Owns.mono (hextends : Extends before after) (h : before.Owns sender userId chatId) :
    after.Owns sender userId chatId := by
  obtain ⟨user, huser, rfl, chat, hchat, howner⟩ := h
  obtain ⟨later, hlater, hid⟩ := hextends.userByTg huser
  exact ⟨later, hlater, hid, chat, hextends.chatById hchat, howner⟩

theorem OwnsKey.mono (hextends : Extends before after) (h : before.OwnsKey sender key) :
    after.OwnsKey sender key := by
  obtain ⟨user, huser, chat, hchat, howner⟩ := h
  obtain ⟨later, hlater, hid⟩ := hextends.userByTg huser
  exact ⟨later, hlater, chat, hextends.chatByKey hchat, howner.trans hid.symm⟩

theorem Opened.mono (hextends : Extends before after) (h : before.Opened sender key session) :
    after.Opened sender key session := by
  obtain ⟨⟨user, huser, hid⟩, chat, hchat, hchatId⟩ := h
  obtain ⟨later, hlater, hlaterId⟩ := hextends.userByTg huser
  exact ⟨⟨later, hlater, hlaterId.trans hid⟩, chat, hextends.chatByKey hchat, hchatId⟩

theorem OwnsTurn.mono (hextends : Extends before after) (h : before.OwnsTurn row) :
    after.OwnsTurn row := by
  obtain ⟨chat, hchat, howner⟩ := h
  exact ⟨chat, hextends.chatById hchat, howner⟩

/-- The owner of a chat row, with a session that the owner has opened. -/
theorem OwnsKey.owns (hsound : directory.Sound) (hown : directory.OwnsKey sender key)
    (hopened : directory.Opened sender key session) :
    directory.Owns sender session.dbUserId session.dbChatId := by
  obtain ⟨user, huser, chat, hchat, howner⟩ := hown
  obtain ⟨⟨opener, hopener, hid⟩, found, hfound, hchatId⟩ := hopened
  obtain rfl := Option.some.inj (huser.symm.trans hopener)
  obtain rfl := Option.some.inj (hchat.symm.trans hfound)
  refine ⟨user, huser, hid, chat, ?_, howner.trans hid⟩
  rw [← hchatId]
  exact hsound.chatById_of_mem (mem_of_chatByKey hchat).1

/-- The active turn of an own chat row is an own turn. -/
theorem Owns.turn (hown : directory.Owns sender userId chatId) (hturn : directory.OwnsTurn row)
    (hchat : row.chatId = chatId) : row.userId = userId := by
  obtain ⟨_, _, _, chat, hfound, howner⟩ := hown
  obtain ⟨other, hother, hotherOwner⟩ := hturn
  rw [hchat] at hother
  obtain rfl := Option.some.inj (hfound.symm.trans hother)
  exact hotherOwner.symm.trans howner

end Directory

/-! ### The store -/

/-- The future was made for a message of this sender, in this chat and topic. -/
def MadeFor (store : SessionStore TGSessionKey Nat) (attempt : Nat) (message : Message) : Prop :=
  ∃ entry, store.attempts[attempt]? = some entry ∧ entry.key = message.key ∧
    entry.bootstrapArg = message.fromUserId

/-- What the store does to futures that have no result yet, and to the entries of `_sessions`. -/
structure Settles (before after : SessionStore TGSessionKey Nat) : Prop where
  slots : ∀ {key : TGSessionKey} {id : Nat}, after.sessions key = some id →
    before.sessions key = some id
  kept : ∀ {id : Nat} {entry : SessionAttempt TGSessionKey Nat},
    before.attempts[id]? = some entry → ∃ later, after.attempts[id]? = some later ∧
      later.key = entry.key ∧ later.bootstrapArg = entry.bootstrapArg
  results : ∀ {id : Nat} {later : SessionAttempt TGSessionKey Nat},
    after.attempts[id]? = some later → ∃ entry, before.attempts[id]? = some entry ∧
      later.key = entry.key ∧ later.bootstrapArg = entry.bootstrapArg ∧
        ∀ session, later.future = .result session → entry.future = .result session

section

variable {store before middle after : SessionStore TGSessionKey Nat} {key : TGSessionKey}
  {attempt : Nat} {message : Message} {future : SessionFuture}

theorem Settles.refl (store : SessionStore TGSessionKey Nat) : Settles store store where
  slots h := h
  kept h := ⟨_, h, rfl, rfl⟩
  results h := ⟨_, h, rfl, rfl, fun _ h => h⟩

theorem Settles.trans (hfirst : Settles before middle) (hsecond : Settles middle after) :
    Settles before after where
  slots h := hfirst.slots (hsecond.slots h)
  kept h := by
    obtain ⟨later, hlater, hkey, harg⟩ := hfirst.kept h
    obtain ⟨last, hlast, hlastKey, hlastArg⟩ := hsecond.kept hlater
    exact ⟨last, hlast, hlastKey.trans hkey, hlastArg.trans harg⟩
  results h := by
    obtain ⟨middle, hmiddle, hkey, harg, hresult⟩ := hsecond.results h
    obtain ⟨entry, hentry, hentryKey, hentryArg, hentryResult⟩ := hfirst.results hmiddle
    exact ⟨entry, hentry, hkey.trans hentryKey, harg.trans hentryArg,
      fun session h => hentryResult session (hresult session h)⟩

theorem MadeFor.mono (hsettles : Settles before after) (h : MadeFor before attempt message) :
    MadeFor after attempt message := by
  obtain ⟨entry, hentry, hkey, harg⟩ := h
  obtain ⟨later, hlater, hlaterKey, hlaterArg⟩ := hsettles.kept hentry
  exact ⟨later, hlater, hlaterKey.trans hkey, hlaterArg.trans harg⟩

theorem claimSlot_joined (h : store.claimSlot key = .joined attempt) :
    store.sessions key = some attempt := by
  unfold SessionStore.claimSlot at h
  split at h
  · cases h
  · rename_i id hid
    split at h
    all_goals cases h
    all_goals exact hid

theorem claimSlot_created (h : store.claimSlot key = .created attempt) :
    attempt = store.attempts.length := by
  unfold SessionStore.claimSlot at h
  split at h
  · cases h
    rfl
  · split at h
    all_goals cases h
    all_goals rfl

theorem settles_pop (store : SessionStore TGSessionKey Nat) (key : TGSessionKey) :
    Settles store (store.pop key) where
  slots := by
    intro other id h
    by_cases hkey : other = key
    · simp [SessionStore.pop, hkey] at h
    · simpa [SessionStore.pop, hkey] using h
  kept h := ⟨_, h, rfl, rfl⟩
  results h := ⟨_, h, rfl, rfl, fun _ h => h⟩

theorem getElem?_setFuture (id : Nat) : (store.setFuture attempt future).attempts[id]? =
    (store.attempts[id]?).map fun entry =>
      if attempt = id then { entry with future := future } else entry := by
  simp only [SessionStore.setFuture, List.getElem?_modify]
  cases store.attempts[id]? with
  | none => rfl
  | some entry => by_cases hid : attempt = id <;> simp [hid]

theorem settles_setFuture (hfuture : future.result? = none) :
    Settles store (store.setFuture attempt future) where
  slots h := h
  kept := by
    intro id entry h
    rw [getElem?_setFuture, h]
    refine ⟨_, rfl, ?_, ?_⟩ <;> split <;> rfl
  results := by
    intro id later h
    rw [getElem?_setFuture] at h
    obtain ⟨entry, hentry, rfl⟩ := Option.map_eq_some_iff.mp h
    refine ⟨entry, hentry, ?_, ?_, fun session hsession => ?_⟩
    · split <;> rfl
    · split <;> rfl
    · by_cases hid : attempt = id
      · rw [if_pos hid] at hsession
        have hnone : future.result? = some session := congrArg SessionFuture.result? hsession
        rw [hfuture] at hnone
        cases hnone
      · rwa [if_neg hid] at hsession

theorem settles_failSlot : Settles store (store.failSlot key attempt) := by
  have hpopped : Settles store
      (if store.get? key = some attempt then store.pop key else store) := by
    split
    · exact settles_pop store key
    · exact .refl store
  by_cases hpending : store.future? attempt = some .pending
  · simp only [SessionStore.failSlot, hpending, if_true]
    exact hpopped.trans (settles_setFuture rfl)
  · simp only [SessionStore.failSlot, hpending, if_false]
    exact hpopped

theorem settles_cancelWaiter : Settles store (store.cancelWaiter attempt) := by
  unfold SessionStore.cancelWaiter
  split
  · exact settles_setFuture rfl
  · exact .refl store

end

/-! ### The invariant -/

/-- What a handler knows about the session that it has or will get. -/
def Phase.Own (directory : Directory) (store : SessionStore TGSessionKey Nat) (message : Message) :
    Phase → Prop
  | .bootstrapping purpose attempt => MadeFor store attempt message ∧
      (purpose ≠ .codexUsage → directory.OwnsKey message.fromUserId message.key)
  | .committing purpose attempt boot => MadeFor store attempt message ∧
      directory.Opened message.fromUserId message.key (SessionStore.buildSession boot) ∧
      (purpose ≠ .codexUsage → directory.OwnsKey message.fromUserId message.key)
  | .waiting purpose attempt => purpose ≠ .codexUsage →
      MadeFor store attempt message ∧ directory.OwnsKey message.fromUserId message.key
  | .reserving _ session | .checking _ session | .creating _ session | .opening session _ =>
      directory.Owns message.fromUserId session.dbUserId session.dbChatId
  | .steering _ session active | .interrupting _ session active =>
      directory.Owns message.fromUserId session.dbUserId session.dbChatId ∧
        directory.OwnsTurn active ∧ active.chatId = session.dbChatId
  | .received | .preparing .. | .claiming _ | .running _ | .ended => True

theorem Phase.Own.mono {before after : Directory} {store later : SessionStore TGSessionKey Nat}
    {message : Message} {phase : Phase} (hextends : Directory.Extends before after)
    (hmade : ∀ {attempt}, MadeFor store attempt message → MadeFor later attempt message)
    (h : phase.Own before store message) : phase.Own after later message := by
  cases phase with
  | bootstrapping purpose attempt => exact ⟨hmade h.1, fun hturn => (h.2 hturn).mono hextends⟩
  | committing purpose attempt boot =>
      exact ⟨hmade h.1, h.2.1.mono hextends, fun hturn => (h.2.2 hturn).mono hextends⟩
  | waiting purpose attempt =>
      exact fun hturn => ⟨hmade (h hturn).1, (h hturn).2.mono hextends⟩
  | reserving _ _ => exact Directory.Owns.mono hextends h
  | checking _ _ => exact Directory.Owns.mono hextends h
  | creating _ _ => exact Directory.Owns.mono hextends h
  | opening _ _ => exact Directory.Owns.mono hextends h
  | steering _ _ _ => exact ⟨h.1.mono hextends, h.2.1.mono hextends, h.2.2⟩
  | interrupting _ _ _ => exact ⟨h.1.mono hextends, h.2.1.mono hextends, h.2.2⟩
  | received | preparing _ _ | claiming _ | running _ | ended => trivial

structure Inv (world : World) : Prop where
  sound : world.directory.Sound
  slots : ∀ {key : TGSessionKey} {id : Nat}, world.store.sessions key = some id →
    ∃ entry, world.store.attempts[id]? = some entry ∧ entry.key = key
  opened : ∀ {id : Nat} {entry : SessionAttempt TGSessionKey Nat} {session : ChatSession},
    world.store.attempts[id]? = some entry → entry.future = .result session →
      world.directory.Opened entry.bootstrapArg entry.key session
  handlers : ∀ {id : Nat} {handler : Handler}, world.handlers[id]? = some handler →
    handler.phase.Own world.directory world.store handler.message
  turns : ∀ {row : TurnRow}, row ∈ world.turns → world.directory.OwnsTurn row
  admins : ∀ {userId : Nat}, world.reliesOn userId = true → world.directory.IsAdmin userId
  submissions : ∀ {submission : Submission}, submission ∈ world.submissions →
    submission.Authorized

/-- The three ways to rely on an admin. -/
theorem reliesOn_iff {world : World} {userId : Nat} : world.reliesOn userId = true ↔
    (∃ (id : Nat) (handler : Handler), world.handlers[id]? = some handler ∧
        handler.phase.reliesOn userId = true) ∨
      (∃ row ∈ world.turns, row.status.isActive = true ∧ isAdminTurn userId row = true) ∨
        ∃ attempt session, world.inUse attempt = true ∧
          world.store.future? attempt = some (.result session) ∧
            isAdminSession userId session = true := by
  have hrange : ∀ attempt session, world.store.future? attempt = some (.result session) →
      attempt < world.store.attempts.length := by
    intro attempt session h
    obtain ⟨entry, hentry, _⟩ := Option.map_eq_some_iff.mp h
    exact (List.getElem?_eq_some_iff.mp hentry).1
  have hresult : ∀ attempt session, ((world.store.future? attempt).bind SessionFuture.result?) =
      some session ↔ world.store.future? attempt = some (.result session) := by
    intro attempt session
    cases hfuture : world.store.future? attempt with
    | none => simp
    | some future => cases future <;> simp [SessionFuture.result?]
  simp only [World.reliesOn, Bool.or_eq_true, List.any_eq_true, Bool.and_eq_true, List.mem_range,
    Option.any_eq_true, or_assoc, hresult]
  refine or_congr ?_ (or_congr Iff.rfl ?_)
  · constructor
    · rintro ⟨handler, hmem, hrelies⟩
      obtain ⟨id, hid⟩ := List.mem_iff_getElem?.mp hmem
      exact ⟨id, handler, hid, hrelies⟩
    · rintro ⟨id, handler, hid, hrelies⟩
      exact ⟨handler, List.mem_of_getElem? hid, hrelies⟩
  · constructor
    · rintro ⟨attempt, _, huse, session, hfuture, hadmin⟩
      exact ⟨attempt, session, huse, hfuture, hadmin⟩
    · rintro ⟨attempt, session, huse, hfuture, hadmin⟩
      exact ⟨attempt, hrange attempt session hfuture, huse, session, hfuture, hadmin⟩

section

variable {world : World} {id : Nat} {handler : Handler} {phase : Phase}

theorem Inv.admin_of_handler (hinv : Inv world) (hhandler : world.handlers[id]? = some handler)
    {userId : Nat} (hrelies : handler.phase.reliesOn userId = true) :
    world.directory.IsAdmin userId :=
  hinv.admins (reliesOn_iff.mpr (.inl ⟨id, handler, hhandler, hrelies⟩))

theorem getElem?_setPhase (other : Nat) : (world.setPhase id phase).handlers[other]? =
    (world.handlers[other]?).map fun handler =>
      if id = other then { handler with phase := phase } else handler := by
  simp only [World.setPhase, List.getElem?_modify]
  cases world.handlers[other]? with
  | none => rfl
  | some handler => by_cases hid : id = other <;> simp [hid]

/-- A handler after `setPhase` is the one that moved, or as it was. -/
theorem setPhase_cases (hhandler : world.handlers[id]? = some handler) {other : Nat}
    {later : Handler} (h : (world.setPhase id phase).handlers[other]? = some later) :
    later = { handler with phase := phase } ∨ world.handlers[other]? = some later := by
  rw [getElem?_setPhase] at h
  obtain ⟨before, hbefore, rfl⟩ := Option.map_eq_some_iff.mp h
  by_cases hid : id = other
  · subst hid
    obtain rfl := Option.some.inj (hhandler.symm.trans hbefore)
    exact .inl (if_pos rfl)
  · right
    rwa [if_neg hid]

theorem inUse_iff {attempt : Nat} : world.inUse attempt = true ↔
    world.store.isCached attempt = true ∨ ∃ (id : Nat) (handler : Handler),
      world.handlers[id]? = some handler ∧ handler.phase.waitsFor attempt = true := by
  simp only [World.inUse, Bool.or_eq_true, List.any_eq_true]
  refine or_congr Iff.rfl ⟨?_, ?_⟩
  · rintro ⟨handler, hmem, hwaits⟩
    obtain ⟨id, hid⟩ := List.mem_iff_getElem?.mp hmem
    exact ⟨id, handler, hid, hwaits⟩
  · rintro ⟨id, handler, hid, hwaits⟩
    exact ⟨handler, List.mem_of_getElem? hid, hwaits⟩

theorem Inv.setPhase (hinv : Inv world) (hhandler : world.handlers[id]? = some handler)
    (hown : phase.Own world.directory world.store handler.message)
    (hrelies : ∀ {userId}, phase.reliesOn userId = true → world.directory.IsAdmin userId)
    (hwaits : ∀ {attempt}, phase.waitsFor attempt = true → world.inUse attempt = true) :
    Inv (world.setPhase id phase) where
  sound := hinv.sound
  slots := hinv.slots
  opened := hinv.opened
  turns := hinv.turns
  submissions := hinv.submissions
  handlers := by
    intro other later hlater
    rcases setPhase_cases hhandler hlater with rfl | hbefore
    · exact hown
    · exact hinv.handlers hbefore
  admins := by
    intro userId h
    have hbefore : ∀ {attempt}, (world.setPhase id phase).inUse attempt = true →
        world.inUse attempt = true := by
      intro attempt huse
      rcases inUse_iff.mp huse with hcached | ⟨other, later, hlater, hwait⟩
      · exact inUse_iff.mpr (.inl hcached)
      · rcases setPhase_cases hhandler hlater with rfl | hbefore
        · exact hwaits hwait
        · exact inUse_iff.mpr (.inr ⟨other, later, hbefore, hwait⟩)
    rcases reliesOn_iff.mp h with ⟨other, later, hlater, hrely⟩ | hturn | ⟨attempt, session, huse, h⟩
    · rcases setPhase_cases hhandler hlater with rfl | hbefore
      · exact hrelies hrely
      · exact hinv.admin_of_handler hbefore hrely
    · exact hinv.admins (reliesOn_iff.mpr (.inr (.inl hturn)))
    · exact hinv.admins (reliesOn_iff.mpr (.inr (.inr ⟨attempt, session, hbefore huse, h⟩)))

/-- A phase in which nothing is in hand. -/
theorem Inv.setIdle (hinv : Inv world) (hhandler : world.handlers[id]? = some handler)
    (hown : phase.Own world.directory world.store handler.message)
    (hrelies : ∀ userId, phase.reliesOn userId = false)
    (hwaits : ∀ attempt, phase.waitsFor attempt = false) : Inv (world.setPhase id phase) := by
  refine hinv.setPhase hhandler hown (fun {userId} h => ?_) (fun {attempt} h => ?_)
  · rw [hrelies userId] at h
    cases h
  · rw [hwaits attempt] at h
    cases h

theorem Inv.setEnded (hinv : Inv world) (hhandler : world.handlers[id]? = some handler) :
    Inv (world.setPhase id .ended) :=
  hinv.setIdle hhandler trivial (fun _ => rfl) fun _ => rfl

theorem Inv.withDirectory (hinv : Inv world) {after : Directory} (hsound : after.Sound)
    (hextends : Directory.Extends world.directory after)
    (hadmins : ∀ {userId}, world.reliesOn userId = true → world.directory.IsAdmin userId →
      after.IsAdmin userId) : Inv { world with directory := after } where
  sound := hsound
  slots := hinv.slots
  opened hentry hresult := (hinv.opened hentry hresult).mono hextends
  handlers h := (hinv.handlers h).mono hextends fun h => h
  turns h := (hinv.turns h).mono hextends
  admins h := hadmins h (hinv.admins h)
  submissions := hinv.submissions

theorem Inv.withTurns (hinv : Inv world) {turns : List TurnRow}
    (howns : ∀ row ∈ turns, world.directory.OwnsTurn row)
    (hadmins : ∀ row ∈ turns, row.status.isActive = true → ∀ {userId},
      isAdminTurn userId row = true → world.directory.IsAdmin userId) :
    Inv { world with turns := turns } where
  sound := hinv.sound
  slots := hinv.slots
  opened := hinv.opened
  handlers := hinv.handlers
  turns h := howns _ h
  submissions := hinv.submissions
  admins := by
    intro userId h
    rcases reliesOn_iff.mp h with hhandler | ⟨row, hmem, hactive, hadmin⟩ | hsession
    · exact hinv.admins (reliesOn_iff.mpr (.inl hhandler))
    · exact hadmins row hmem hactive hadmin
    · exact hinv.admins (reliesOn_iff.mpr (.inr (.inr hsession)))

theorem isCached_iff {store : SessionStore TGSessionKey Nat} {attempt : Nat}
    {entry : SessionAttempt TGSessionKey Nat} (h : store.attempts[attempt]? = some entry) :
    store.isCached attempt = true ↔ store.sessions entry.key = some attempt := by
  unfold SessionStore.isCached
  rw [h]
  exact decide_eq_true_iff

theorem Settles.isCached {before after : SessionStore TGSessionKey Nat}
    (hsettles : Settles before after) {attempt : Nat} (h : after.isCached attempt = true) :
    before.isCached attempt = true := by
  cases hlater : after.attempts[attempt]? with
  | none => simp [SessionStore.isCached, hlater] at h
  | some later =>
      obtain ⟨entry, hentry, hkey, _⟩ := hsettles.results hlater
      refine (isCached_iff hentry).mpr ?_
      rw [← hkey]
      exact hsettles.slots ((isCached_iff hlater).mp h)

theorem future?_eq_some {store : SessionStore TGSessionKey Nat} {attempt : Nat}
    {future : SessionFuture} (h : store.future? attempt = some future) :
    ∃ entry, store.attempts[attempt]? = some entry ∧ entry.future = future :=
  Option.map_eq_some_iff.mp h

theorem Inv.withStore (hinv : Inv world) {store : SessionStore TGSessionKey Nat}
    (hsettles : Settles world.store store) : Inv { world with store := store } where
  sound := hinv.sound
  turns := hinv.turns
  submissions := hinv.submissions
  slots h := by
    obtain ⟨entry, hentry, hkey⟩ := hinv.slots (hsettles.slots h)
    obtain ⟨later, hlater, hlaterKey, _⟩ := hsettles.kept hentry
    exact ⟨later, hlater, hlaterKey.trans hkey⟩
  opened hlater hresult := by
    obtain ⟨entry, hentry, hkey, harg, hbefore⟩ := hsettles.results hlater
    rw [hkey, harg]
    exact hinv.opened hentry (hbefore _ hresult)
  handlers h := (hinv.handlers h).mono (.refl _) fun h => h.mono hsettles
  admins := by
    intro userId h
    rcases reliesOn_iff.mp h with hhandler | hturn | ⟨attempt, session, huse, hfuture, hadmin⟩
    · exact hinv.admins (reliesOn_iff.mpr (.inl hhandler))
    · exact hinv.admins (reliesOn_iff.mpr (.inr (.inl hturn)))
    · obtain ⟨later, hlater, hresult⟩ := future?_eq_some hfuture
      obtain ⟨entry, hentry, _, _, hbefore⟩ := hsettles.results hlater
      have huse : world.inUse attempt = true := by
        rcases inUse_iff.mp huse with hcached | hwaits
        · exact inUse_iff.mpr (.inl (hsettles.isCached hcached))
        · exact inUse_iff.mpr (.inr hwaits)
      have hfuture : world.store.future? attempt = some (.result session) :=
        Option.map_eq_some_iff.mpr ⟨entry, hentry, hbefore session hresult⟩
      exact hinv.admins (reliesOn_iff.mpr (.inr (.inr ⟨attempt, session, huse, hfuture, hadmin⟩)))

/-- A session whose opener has it in hand becomes the result of its future. -/
theorem Inv.withResult (hinv : Inv world) {attempt : Nat} {session : ChatSession}
    {message : Message} (hmade : MadeFor world.store attempt message)
    (hopened : world.directory.Opened message.fromUserId message.key session)
    (hadmin : ∀ {userId}, isAdminSession userId session = true → world.directory.IsAdmin userId) :
    Inv { world with store := world.store.setFuture attempt (.result session) } where
  sound := hinv.sound
  turns := hinv.turns
  submissions := hinv.submissions
  slots h := by
    obtain ⟨entry, hentry, hkey⟩ := hinv.slots h
    refine ⟨_, (getElem?_setFuture _).trans (by rw [hentry]; rfl), ?_⟩
    split
    · exact hkey
    · exact hkey
  opened := by
    intro id later result hlater hresult
    rw [getElem?_setFuture] at hlater
    obtain ⟨entry, hentry, rfl⟩ := Option.map_eq_some_iff.mp hlater
    by_cases hid : attempt = id
    · subst hid
      obtain ⟨made, hmade, hkey, harg⟩ := hmade
      obtain rfl := Option.some.inj (hmade.symm.trans hentry)
      rw [if_pos rfl] at hresult ⊢
      obtain rfl : session = result := by simpa using hresult
      rw [hkey, harg]
      exact hopened
    · rw [if_neg hid] at hresult ⊢
      exact hinv.opened hentry hresult
  handlers h := (hinv.handlers h).mono (.refl _) fun {made} hmade => by
    obtain ⟨entry, hentry, hkey, harg⟩ := hmade
    refine ⟨_, (getElem?_setFuture _).trans (by rw [hentry]; rfl), ?_, ?_⟩
    · split <;> exact hkey
    · split <;> exact harg
  admins := by
    intro userId h
    rcases reliesOn_iff.mp h with hhandler | hturn | ⟨used, result, huse, hfuture, hrelies⟩
    · exact hinv.admins (reliesOn_iff.mpr (.inl hhandler))
    · exact hinv.admins (reliesOn_iff.mpr (.inr (.inl hturn)))
    · obtain ⟨later, hlater, hresult⟩ := future?_eq_some hfuture
      rw [getElem?_setFuture] at hlater
      obtain ⟨entry, hentry, rfl⟩ := Option.map_eq_some_iff.mp hlater
      by_cases hid : attempt = used
      · rw [if_pos hid] at hresult
        obtain rfl : session = result := by simpa using hresult
        exact hadmin hrelies
      · rw [if_neg hid] at hresult
        have hfuture : world.store.future? used = some (.result result) :=
          Option.map_eq_some_iff.mpr ⟨entry, hentry, hresult⟩
        have huse : world.inUse used = true := by
          rcases inUse_iff.mp huse with hcached | hwaits
          · have hlater : (world.store.setFuture attempt (.result session)).attempts[used]? =
                some entry := (getElem?_setFuture used).trans (by
                  rw [hentry, Option.map_some, if_neg hid])
            exact inUse_iff.mpr (.inl ((isCached_iff hentry).mpr ((isCached_iff hlater).mp hcached)))
          · exact inUse_iff.mpr (.inr hwaits)
        exact hinv.admins (reliesOn_iff.mpr (.inr (.inr ⟨used, result, huse, hfuture, hrelies⟩)))

theorem getElem?_insertSlot {store : SessionStore TGSessionKey Nat} {key : TGSessionKey}
    {arg index : Nat} {entry : SessionAttempt TGSessionKey Nat}
    (h : (store.insertSlot key arg).attempts[index]? = some entry) :
    store.attempts[index]? = some entry ∨
      (index = store.attempts.length ∧ entry = ⟨key, arg, .pending⟩) := by
  rcases Nat.lt_or_ge index store.attempts.length with hlt | hge
  · left
    simpa [SessionStore.insertSlot, List.getElem?_append_left hlt] using h
  · right
    rw [SessionStore.insertSlot, List.getElem?_append_right hge] at h
    cases hdifference : index - store.attempts.length with
    | zero => exact ⟨by omega, by simpa [hdifference] using h.symm⟩
    | succ _ => simp [hdifference] at h

theorem Inv.withSlot (hinv : Inv world) (key : TGSessionKey) (arg : Nat) :
    Inv { world with store := world.store.insertSlot key arg } := by
  have hold : ∀ {index : Nat} {entry : SessionAttempt TGSessionKey Nat},
      world.store.attempts[index]? = some entry →
        (world.store.insertSlot key arg).attempts[index]? = some entry := by
    intro index entry h
    rw [SessionStore.insertSlot,
      List.getElem?_append_left (List.getElem?_eq_some_iff.mp h).1, h]
  have hresult : ∀ {index : Nat} {entry : SessionAttempt TGSessionKey Nat} {session : ChatSession},
      (world.store.insertSlot key arg).attempts[index]? = some entry →
        entry.future = .result session → world.store.attempts[index]? = some entry := by
    intro index entry session h hfuture
    rcases getElem?_insertSlot h with hbefore | ⟨_, rfl⟩
    · exact hbefore
    · cases hfuture
  refine ⟨hinv.sound, ?_, fun hentry hfuture => hinv.opened (hresult hentry hfuture) hfuture, ?_,
    hinv.turns, ?_, hinv.submissions⟩
  · intro other id h
    by_cases hkey : other = key
    · have hid : world.store.attempts.length = id := by
        simpa [SessionStore.insertSlot, hkey] using h
      subst hid
      exact ⟨⟨key, arg, .pending⟩, by simp [SessionStore.insertSlot], hkey.symm⟩
    · have h : world.store.sessions other = some id := by
        simpa [SessionStore.insertSlot, hkey] using h
      obtain ⟨entry, hentry, hentryKey⟩ := hinv.slots h
      exact ⟨entry, hold hentry, hentryKey⟩
  · exact fun h => (hinv.handlers h).mono (.refl _) fun ⟨entry, hentry, hmade⟩ =>
      ⟨entry, hold hentry, hmade⟩
  · intro userId h
    rcases reliesOn_iff.mp h with hhandler | hturn | ⟨attempt, session, huse, hfuture, hadmin⟩
    · exact hinv.admins (reliesOn_iff.mpr (.inl hhandler))
    · exact hinv.admins (reliesOn_iff.mpr (.inr (.inl hturn)))
    · obtain ⟨entry, hentry, hsession⟩ := future?_eq_some hfuture
      have hbefore := hresult hentry hsession
      have huse : world.inUse attempt = true := by
        rcases inUse_iff.mp huse with hcached | hwaits
        · have hslot := (isCached_iff hentry).mp hcached
          have hlt := (List.getElem?_eq_some_iff.mp hbefore).1
          have hother : entry.key ≠ key := by
            intro hkey
            have : world.store.attempts.length = attempt := by
              simpa [SessionStore.insertSlot, hkey] using hslot
            omega
          refine inUse_iff.mpr (.inl ((isCached_iff hbefore).mpr ?_))
          simpa [SessionStore.insertSlot, hother] using hslot
        · exact inUse_iff.mpr (.inr hwaits)
      have hfuture : world.store.future? attempt = some (.result session) :=
        Option.map_eq_some_iff.mpr ⟨entry, hbefore, hsession⟩
      exact hinv.admins (reliesOn_iff.mpr (.inr (.inr ⟨attempt, session, huse, hfuture, hadmin⟩)))

theorem Inv.submit (hinv : Inv world) {kind : SubmissionKind} {message : Message}
    {userId chatId : Nat} {sidecar : SidecarName}
    (howns : world.directory.Owns message.fromUserId userId chatId)
    (hadmin : sidecar = .admin → world.directory.IsAdmin userId) :
    Inv (world.submit kind message userId chatId sidecar) where
  sound := hinv.sound
  slots := hinv.slots
  opened := hinv.opened
  handlers := hinv.handlers
  turns := hinv.turns
  admins := hinv.admins
  submissions := by
    intro submission h
    rcases List.mem_append.mp h with hbefore | hnew
    · exact hinv.submissions hbefore
    · obtain rfl := List.mem_singleton.mp hnew
      obtain ⟨user, huser, rfl, chat, hchat, howner⟩ := howns
      refine ⟨user, huser, chat, hchat, rfl, howner, fun hsidecar => ?_⟩
      obtain ⟨admin, hmem, hid, hrole⟩ := hadmin hsidecar
      rw [hinv.sound.user_eq (Directory.mem_of_userByTg huser).1 hmem hid.symm]
      exact hrole

end

/-! ### The turns -/

/-- What `mark_running` and `finalize_once` do to a row. -/
def Keeps (update : TurnRow → Option TurnRow) : Prop :=
  ∀ row later : TurnRow, update row = some later → later.chatId = row.chatId ∧
    later.userId = row.userId ∧ later.sidecar = row.sidecar ∧
      (later.status.isActive = true → row.status.isActive = true)

theorem keeps_markRunning (threadId codexTurnId : String) (now : Nat) :
    Keeps fun row => row.markRunning threadId codexTurnId now := by
  intro row later h
  simp only [TurnRow.markRunning] at h
  split at h
  · rename_i hstarting
    cases h
    exact ⟨rfl, rfl, rfl, fun _ => by rw [hstarting]; rfl⟩
  · cases h

theorem keeps_finalizeOnce (status : TerminalStatus) (errorCode errorDetail : Option String)
    (now : Nat) : Keeps fun row => row.finalizeOnce status errorCode errorDetail now := by
  intro row later h
  simp only [TurnRow.finalizeOnce] at h
  split at h
  · rename_i hactive
    cases h
    exact ⟨rfl, rfl, rfl, fun _ => hactive⟩
  · cases h

theorem Inv.withUpdate {world : World} (hinv : Inv world) {update : TurnRow → Option TurnRow}
    (hkeeps : Keeps update) (turnId : Nat) :
    Inv { world with turns := updateTurn turnId update world.turns } := by
  have hrow : ∀ later ∈ updateTurn turnId update world.turns, ∃ row ∈ world.turns,
      later.chatId = row.chatId ∧ later.userId = row.userId ∧ later.sidecar = row.sidecar ∧
        (later.status.isActive = true → row.status.isActive = true) := by
    intro later hlater
    obtain ⟨row, hmem, rfl⟩ := List.mem_map.mp hlater
    refine ⟨row, hmem, ?_⟩
    split
    · cases hupdate : update row with
      | none => exact ⟨rfl, rfl, rfl, id⟩
      | some later => exact hkeeps row later hupdate
    · exact ⟨rfl, rfl, rfl, id⟩
  refine hinv.withTurns (fun later hlater => ?_) fun later hlater hactive userId hadmin => ?_
  · obtain ⟨row, hmem, hchat, huser, _⟩ := hrow later hlater
    obtain ⟨chat, hfound, howner⟩ := hinv.turns hmem
    exact ⟨chat, by rw [hchat, hfound], by rw [howner, huser]⟩
  · obtain ⟨row, hmem, _, huser, hsidecar, hbefore⟩ := hrow later hlater
    refine hinv.admins (reliesOn_iff.mpr (.inr (.inl ⟨row, hmem, hbefore hactive, ?_⟩)))
    simpa [isAdminTurn, huser, hsidecar] using hadmin

theorem getActiveForChat_spec {chatId : Nat} {turns : List TurnRow} {row : TurnRow}
    (h : getActiveForChat chatId turns = some row) :
    row ∈ turns ∧ row.chatId = chatId ∧ row.status.isActive = true := by
  have hfound := List.find?_some h
  simp only [Bool.and_eq_true, decide_eq_true_eq] at hfound
  exact ⟨List.mem_of_find?_eq_some h, hfound⟩

theorem tryCreateStarting_spec {payload : TurnCreate} {now : Nat} {turns later : List TurnRow}
    {row : TurnRow} (h : tryCreateStarting payload now turns = some (row, later)) :
    later = turns ++ [row] ∧ row.chatId = payload.chatId ∧ row.userId = payload.userId ∧
      row.sidecar = some payload.sidecar := by
  unfold tryCreateStarting at h
  split at h
  · cases h
  · cases h
    exact ⟨rfl, rfl, rfl, rfl⟩

/-! ### The steps of a handler -/

section

variable {adminUserIds : List Nat} {world next : World} {id : Nat} {handler : Handler}

theorem Inv.own (hinv : Inv world) (hhandler : world.handlers[id]? = some handler) {phase : Phase}
    (hphase : handler.phase = phase) :
    phase.Own world.directory world.store handler.message := by
  rw [← hphase]
  exact hinv.handlers hhandler

theorem Inv.relies (hinv : Inv world) (hhandler : world.handlers[id]? = some handler)
    {phase : Phase} (hphase : handler.phase = phase) {userId : Nat}
    (hrelies : phase.reliesOn userId = true) : world.directory.IsAdmin userId := by
  rw [← hphase] at hrelies
  exact hinv.admin_of_handler hhandler hrelies

/-- The transaction of a handler: the sender's row, and the chat row whoever owns it. -/
theorem Inv.withRows (hinv : Inv world) {message : Message} {user : UserRow} {chat : ChatRow}
    {directory : Directory}
    (h : world.directory.rowsOf adminUserIds message = (user, chat, directory)) :
    Inv { world with directory := directory } ∧ Directory.Extends world.directory directory ∧
      directory.userByTg? message.fromUserId = some user ∧
      directory.chatByKey? message.key = some chat := by
  unfold Directory.rowsOf at h
  cases hcreate : world.directory.getOrCreateByTg adminUserIds message.fromUserId with
  | mk found withUser =>
      cases hopen : withUser.getOrCreateForTg found.id message.key with
      | mk foundChat withChat =>
          rw [hcreate] at h
          simp only [hopen] at h
          cases h
          obtain ⟨hsound, hextends, huser, hadmins⟩ :=
            Directory.getOrCreateByTg_spec hinv.sound hcreate
          obtain ⟨hlater, hlaterExtends, hchat, husers⟩ :=
            Directory.getOrCreateForTg_spec hsound hopen
          refine ⟨hinv.withDirectory hlater (hextends.trans hlaterExtends) fun _ hadmin => ?_,
            hextends.trans hlaterExtends, ?_, hchat⟩
          · obtain ⟨admin, hmem, hadmin⟩ := hadmins hadmin
            exact ⟨admin, by rw [husers]; exact hmem, hadmin⟩
          · rw [← huser]
            simp only [Directory.userByTg?, husers]

theorem Inv.resolve (hinv : Inv world) (hhandler : world.handlers[id]? = some handler)
    (h : advance adminUserIds world id handler (.resolve id) = some next) : Inv next := by
  unfold advance at h
  dsimp only at h
  split at h
  · cases h
    exact (hinv.withRows rfl).1.setIdle hhandler trivial (fun _ => rfl) fun _ => rfl
  · cases h

theorem Inv.prepare (hinv : Inv world) (hhandler : world.handlers[id]? = some handler)
    {prepared : Option PreparedTurn}
    (h : advance adminUserIds world id handler (.prepare id prepared) = some next) :
    Inv next := by
  unfold advance at h
  dsimp only at h
  split at h
  · cases h
    split
    · exact hinv.setEnded hhandler
    · exact hinv.setIdle hhandler trivial (fun _ => rfl) fun _ => rfl
  · cases h
    exact hinv.setEnded hhandler
  · cases h

/-- **Taking a session.** The only step that may put a session into the hands of another user. -/
theorem Inv.claimSlot (hinv : Inv world) (hhandler : world.handlers[id]? = some handler)
    (hallowed : undisturbed world (.claimSlot id) = true)
    (h : advance adminUserIds world id handler (.claimSlot id) = some next) : Inv next := by
  unfold advance at h
  dsimp only at h
  split at h
  · rename_i purpose hphase
    have hown : purpose ≠ .codexUsage →
        world.directory.OwnsKey handler.message.fromUserId handler.message.key ∧
          world.opensOwn handler.message = true := by
      intro hturn
      cases purpose with
      | codexUsage => exact absurd rfl hturn
      | turn prepared =>
          have hallowed : world.ownsChat handler.message = true ∧
              world.opensOwn handler.message = true := by
            simpa [undisturbed, hhandler, hphase] using hallowed
          refine ⟨?_, hallowed.2⟩
          obtain ⟨chat, hchat, howner⟩ := (Option.any_eq_true _ _).mp hallowed.1
          obtain ⟨user, huser, howner⟩ := (Option.any_eq_true _ _).mp howner
          exact ⟨user, huser, chat, hchat, by simpa using howner⟩
    split at h
    · rename_i attempt hclaim
      cases h
      have hslot := claimSlot_joined hclaim
      obtain ⟨entry, hentry, hkey⟩ := hinv.slots hslot
      refine hinv.setPhase hhandler (fun hturn => ⟨⟨entry, hentry, hkey, ?_⟩, (hown hturn).1⟩)
        (fun h => nomatch h) fun {waited} h => ?_
      · have hopens := (hown hturn).2
        simpa [World.opensOwn, hclaim, hentry] using hopens
      · have hwaited : attempt = waited := by simpa [Phase.waitsFor] using h
        subst hwaited
        exact inUse_iff.mpr (.inl ((isCached_iff hentry).mpr (by rw [hkey, hslot])))
    · rename_i attempt hclaim
      cases h
      have hlength := claimSlot_created hclaim
      refine (hinv.withSlot handler.message.key handler.message.fromUserId).setIdle hhandler
        ⟨?_, fun hturn => (hown hturn).1⟩ (fun _ => rfl) fun _ => rfl
      exact ⟨⟨handler.message.key, handler.message.fromUserId, .pending⟩,
        by simp [SessionStore.insertSlot, hlength], rfl, rfl⟩
    · cases h
      exact hinv.setEnded hhandler
  · cases h

theorem Inv.bootstrap (hinv : Inv world) (hhandler : world.handlers[id]? = some handler)
    (h : advance adminUserIds world id handler (.bootstrap id) = some next) : Inv next := by
  unfold advance at h
  dsimp only at h
  split at h
  · rename_i purpose attempt hphase
    obtain ⟨hmade, howns⟩ := hinv.own hhandler hphase
    cases hrows : world.directory.rowsOf adminUserIds handler.message with
    | mk user rest =>
        obtain ⟨chat, directory⟩ := rest
        obtain ⟨hlater, hextends, huser, hchat⟩ := hinv.withRows hrows
        rw [hrows] at h
        cases h
        have hopened : directory.Opened handler.message.fromUserId handler.message.key
            ⟨chat.id, user.id, user.role = UserRole.admin⟩ :=
          ⟨⟨user, huser, rfl⟩, chat, hchat, rfl⟩
        refine hlater.setPhase hhandler
          ⟨hmade, hopened, fun hturn => (howns hturn).mono hextends⟩ (fun {userId} hrelies => ?_)
          fun h => nomatch h
        have hadmin : user.role = .admin ∧ user.id = userId := by
          simpa [Phase.reliesOn, isAdminSession, SessionStore.buildSession] using hrelies
        exact ⟨user, (Directory.mem_of_userByTg huser).1, hadmin.2, hadmin.1⟩
  · cases h

/-- What follows on `get_or_open` has the session in hand. -/
theorem Inv.proceed (hinv : Inv world) (hhandler : world.handlers[id]? = some handler)
    {purpose : Purpose} {session : ChatSession}
    (howns : purpose ≠ .codexUsage →
      world.directory.Owns handler.message.fromUserId session.dbUserId session.dbChatId)
    (hadmin : ∀ {userId}, isAdminSession userId session = true → world.directory.IsAdmin userId) :
    Inv (world.setPhase id (proceed purpose session)) := by
  cases purpose with
  | codexUsage => exact hinv.setEnded hhandler
  | turn prepared =>
      exact hinv.setPhase hhandler (howns (fun h => nomatch h)) hadmin fun h => nomatch h

theorem Inv.fulfilSlot (hinv : Inv world) (hhandler : world.handlers[id]? = some handler)
    (h : advance adminUserIds world id handler (.fulfilSlot id) = some next) : Inv next := by
  unfold advance at h
  dsimp only at h
  split at h
  · rename_i purpose attempt boot hphase
    obtain ⟨hmade, hopened, howns⟩ := hinv.own hhandler hphase
    have hadmin : ∀ {userId}, isAdminSession userId (SessionStore.buildSession boot) = true →
        world.directory.IsAdmin userId := hinv.relies hhandler hphase
    split at h
    · rename_i store hfulfil
      cases h
      unfold SessionStore.fulfilSlot at hfulfil
      split at hfulfil
      · cases hfulfil
        exact (hinv.withResult hmade hopened hadmin).proceed hhandler
          (fun hturn => (howns hturn).owns hinv.sound hopened) hadmin
      · cases hfulfil
    · cases h
      exact hinv.setEnded hhandler
  · cases h

theorem Inv.join (hinv : Inv world) (hhandler : world.handlers[id]? = some handler)
    (h : advance adminUserIds world id handler (.join id) = some next) : Inv next := by
  unfold advance at h
  dsimp only at h
  split at h
  · rename_i purpose attempt hphase
    split at h
    · rename_i session hfuture
      cases h
      obtain ⟨entry, hentry, hresult⟩ := future?_eq_some hfuture
      refine hinv.proceed hhandler (fun hturn => ?_) fun {userId} hadmin => ?_
      · obtain ⟨⟨made, hmade, hkey, harg⟩, howns⟩ := hinv.own hhandler hphase hturn
        obtain rfl := Option.some.inj (hmade.symm.trans hentry)
        refine howns.owns hinv.sound ?_
        rw [← hkey, ← harg]
        exact hinv.opened hentry hresult
      · have hwaits : handler.phase.waitsFor attempt = true := by simp [hphase, Phase.waitsFor]
        have huse := inUse_iff.mpr (.inr ⟨id, handler, hhandler, hwaits⟩)
        exact hinv.admins (reliesOn_iff.mpr (.inr (.inr ⟨attempt, session, huse, hfuture, hadmin⟩)))
    · cases h
      exact hinv.setEnded hhandler
    · cases h
      exact hinv.setEnded hhandler
    · cases h
    · cases h
  · cases h

theorem Inv.reserveTurn (hinv : Inv world) (hhandler : world.handlers[id]? = some handler)
    {admitted : Bool}
    (h : advance adminUserIds world id handler (.reserveTurn id admitted) = some next) :
    Inv next := by
  unfold advance at h
  dsimp only at h
  split at h
  · rename_i prepared session hphase
    have howns := hinv.own hhandler hphase
    cases h
    cases admitted with
    | true => exact hinv.setPhase hhandler howns (hinv.relies hhandler hphase) fun h => nomatch h
    | false => exact hinv.setEnded hhandler
  · cases h

theorem Inv.handleActive (hinv : Inv world) (hhandler : world.handlers[id]? = some handler)
    {prepared : PreparedTurn} {session : ChatSession} {active : TurnRow}
    (howns : world.directory.Owns handler.message.fromUserId session.dbUserId session.dbChatId)
    (hadmin : ∀ {userId}, isAdminSession userId session = true → world.directory.IsAdmin userId)
    (hactive : getActiveForChat session.dbChatId world.turns = some active) :
    Inv (world.setPhase id (handleActive prepared session active)) := by
  obtain ⟨hmem, hchat, hstatus⟩ := getActiveForChat_spec hactive
  have hrelies : ∀ {userId}, (isAdminSession userId session || isAdminTurn userId active) = true →
      world.directory.IsAdmin userId := by
    intro userId h
    rcases Bool.or_eq_true _ _ |>.mp h with hsession | hturn
    · exact hadmin hsession
    · exact hinv.admins (reliesOn_iff.mpr (.inr (.inl ⟨active, hmem, hstatus, hturn⟩)))
  unfold TelegramHandler.handleActive
  split
  · exact hinv.setEnded hhandler
  · split
    · exact hinv.setEnded hhandler
    · split
      · exact hinv.setPhase hhandler ⟨howns, hinv.turns hmem, hchat⟩ hrelies fun h => nomatch h
      · exact hinv.setPhase hhandler ⟨howns, hinv.turns hmem, hchat⟩ hrelies fun h => nomatch h

theorem Inv.checkActive (hinv : Inv world) (hhandler : world.handlers[id]? = some handler)
    {now : Nat} (h : advance adminUserIds world id handler (.checkActive id now) = some next) :
    Inv next := by
  unfold advance at h
  dsimp only at h
  split at h
  · rename_i prepared session hphase
    have howns := hinv.own hhandler hphase
    have hadmin : ∀ {userId}, isAdminSession userId session = true →
        world.directory.IsAdmin userId := hinv.relies hhandler hphase
    split at h
    · cases h
      exact hinv.setPhase hhandler howns hadmin fun h => nomatch h
    · rename_i active hactive
      split at h
      · cases h
        exact hinv.handleActive hhandler howns hadmin hactive
      · cases h
        exact (hinv.withUpdate (keeps_finalizeOnce _ _ _ _) _).setPhase hhandler howns hadmin
          fun h => nomatch h
  · cases h

/-- A steer goes to a turn of the sender, for its chat row is the sender's. -/
theorem Inv.steer (hinv : Inv world) (hhandler : world.handlers[id]? = some handler)
    {accepted : Bool} (h : advance adminUserIds world id handler (.steer id accepted) = some next) :
    Inv next := by
  unfold advance at h
  dsimp only at h
  split at h
  · rename_i prepared session active hphase
    have hown := hinv.own hhandler hphase
    obtain ⟨howns, hturn, hchat⟩ := hown
    have hrelies : ∀ {userId}, (isAdminSession userId session || isAdminTurn userId active) = true →
        world.directory.IsAdmin userId := hinv.relies hhandler hphase
    have huser : active.userId = session.dbUserId := howns.turn hturn hchat
    cases h
    have hsubmitted : Inv (world.submit .steer handler.message active.userId session.dbChatId
        (normalize active.sidecar)) := by
      refine hinv.submit (by rw [huser]; exact howns) fun hsidecar => ?_
      exact @hrelies active.userId (by simp [isAdminTurn, hsidecar])
    cases accepted with
    | true => exact hsubmitted.setEnded hhandler
    | false =>
        exact hsubmitted.setPhase hhandler ⟨howns, hturn, hchat⟩ hrelies fun h => nomatch h
  · cases h

theorem Inv.interrupt (hinv : Inv world) (hhandler : world.handlers[id]? = some handler)
    {interrupted : Bool}
    (h : advance adminUserIds world id handler (.interrupt id interrupted) = some next) :
    Inv next := by
  unfold advance at h
  dsimp only at h
  split at h
  · rename_i prepared session active hphase
    obtain ⟨howns, _⟩ := hinv.own hhandler hphase
    cases h
    cases interrupted with
    | true =>
        refine hinv.setPhase hhandler howns (fun {userId} hadmin => ?_) fun h => nomatch h
        exact hinv.relies hhandler hphase (Bool.or_eq_true _ _ |>.mpr (.inl hadmin))
    | false => exact hinv.setEnded hhandler
  · cases h

theorem isAdminSession_self {session : ChatSession} (h : sidecarOf session.isAdmin = .admin) :
    isAdminSession session.dbUserId session = true := by
  cases hadmin : session.isAdmin with
  | true => simp [isAdminSession, hadmin]
  | false => simp [sidecarOf, hadmin] at h

theorem Inv.createTurn (hinv : Inv world) (hhandler : world.handlers[id]? = some handler)
    {userMessageId now : Nat}
    (h : advance adminUserIds world id handler (.createTurn id userMessageId now) = some next) :
    Inv next := by
  unfold advance at h
  dsimp only at h
  split at h
  · rename_i prepared session hphase
    have howns := hinv.own hhandler hphase
    have hadmin : ∀ {userId}, isAdminSession userId session = true →
        world.directory.IsAdmin userId := hinv.relies hhandler hphase
    split at h
    · rename_i row turns hcreate
      obtain ⟨rfl, hchat, huser, hsidecar⟩ := tryCreateStarting_spec hcreate
      cases h
      have hlater : Inv { world with turns := world.turns ++ [row] } := by
        refine hinv.withTurns (fun later hlater => ?_) fun later hlater hactive userId hturn => ?_
        · rcases List.mem_append.mp hlater with hbefore | hnew
          · exact hinv.turns hbefore
          · obtain rfl := List.mem_singleton.mp hnew
            obtain ⟨_, _, _, chat, hfound, howner⟩ := howns
            exact ⟨chat, by rw [hchat, hfound], by rw [howner, huser]⟩
        · rcases List.mem_append.mp hlater with hbefore | hnew
          · exact hinv.admins (reliesOn_iff.mpr (.inr (.inl ⟨later, hbefore, hactive, hturn⟩)))
          · obtain rfl := List.mem_singleton.mp hnew
            have hturn : sidecarOf session.isAdmin = .admin ∧ session.dbUserId = userId := by
              simpa [isAdminTurn, hsidecar, huser, normalize] using hturn
            rw [← hturn.2]
            exact hadmin (isAdminSession_self hturn.1)
      exact hlater.setPhase hhandler howns hadmin fun h => nomatch h
    · cases h
      exact hinv.setEnded hhandler
  · cases h

theorem Inv.openTurn (hinv : Inv world) (hhandler : world.handlers[id]? = some handler)
    {outcome : LockAcquireOutcome} {now : Nat}
    (h : advance adminUserIds world id handler (.openTurn id outcome now) = some next) :
    Inv next := by
  unfold advance at h
  dsimp only at h
  split at h
  · rename_i session turnId hphase
    have howns := hinv.own hhandler hphase
    split at h
    · cases h
      have hsubmitted : Inv (world.submit .newTurn handler.message session.dbUserId
          session.dbChatId (sidecarOf session.isAdmin)) :=
        hinv.submit howns fun hsidecar =>
          hinv.relies hhandler hphase (isAdminSession_self hsidecar)
      exact hsubmitted.setIdle hhandler trivial (fun _ => rfl) fun _ => rfl
    · cases h
      exact (hinv.withUpdate (keeps_finalizeOnce _ _ _ _) _).setEnded hhandler
  · cases h

theorem Inv.markRunning (hinv : Inv world) {threadId codexTurnId : String} {now : Nat}
    (h : advance adminUserIds world id handler (.markRunning id threadId codexTurnId now) =
      some next) : Inv next := by
  unfold advance at h
  dsimp only at h
  split at h
  · cases h
    exact hinv.withUpdate (keeps_markRunning _ _ _) _
  · cases h

theorem Inv.finish (hinv : Inv world) (hhandler : world.handlers[id]? = some handler)
    {status : TerminalStatus} {errorCode errorDetail : Option String} {now : Nat}
    (h : advance adminUserIds world id handler (.finish id status errorCode errorDetail now) =
      some next) : Inv next := by
  unfold advance at h
  dsimp only at h
  split at h
  · cases h
    exact (hinv.withUpdate (keeps_finalizeOnce _ _ _ _) _).setEnded hhandler
  · cases h

theorem settles_failAttempt (world : World) (handler : Handler) :
    Settles world.store (failAttempt world handler) := by
  unfold failAttempt
  split
  · exact settles_failSlot
  · exact settles_failSlot
  · exact .refl _

theorem settles_cancelAttempt (world : World) (handler : Handler) :
    Settles world.store (cancelAttempt world handler) := by
  unfold cancelAttempt
  split
  · exact settles_cancelWaiter
  · exact .refl _

theorem Inv.raise (hinv : Inv world) (hhandler : world.handlers[id]? = some handler)
    (h : advance adminUserIds world id handler (.raise id) = some next) : Inv next := by
  unfold advance at h
  dsimp only at h
  split at h
  · cases h
  · cases h
    exact (hinv.withStore (settles_failAttempt world handler)).setEnded hhandler

theorem Inv.cancel (hinv : Inv world) (hhandler : world.handlers[id]? = some handler)
    (h : advance adminUserIds world id handler (.cancel id) = some next) : Inv next := by
  unfold advance at h
  dsimp only at h
  split at h
  · cases h
  · cases h
    exact (hinv.withStore (settles_cancelAttempt world handler)).setEnded hhandler

end

/-! ### The steps of the system -/

section

variable {adminUserIds : List Nat} {world next : World}

theorem Inv.start (hinv : Inv world) {message : Message} {phase : Phase}
    (hown : phase.Own world.directory world.store message)
    (hrelies : ∀ userId, phase.reliesOn userId = false)
    (hwaits : ∀ attempt, phase.waitsFor attempt = false) : Inv (world.start message phase) := by
  have hcases : ∀ {id : Nat} {handler : Handler},
      (world.start message phase).handlers[id]? = some handler →
        world.handlers[id]? = some handler ∨ handler = ⟨message, phase⟩ := by
    intro id handler h
    have hmem := List.mem_of_getElem? h
    rcases Nat.lt_or_ge id world.handlers.length with hlt | hge
    · left
      simpa [World.start, List.getElem?_append_left hlt] using h
    · right
      rw [World.start, List.getElem?_append_right hge] at h
      simpa using List.mem_of_getElem? h
  refine ⟨hinv.sound, hinv.slots, hinv.opened, ?_, hinv.turns, ?_, hinv.submissions⟩
  · intro id handler h
    rcases hcases h with hbefore | rfl
    · exact hinv.handlers hbefore
    · exact hown
  · intro userId h
    rcases reliesOn_iff.mp h with ⟨id, handler, hhandler, hrely⟩ | hturn |
      ⟨attempt, session, huse, hsession⟩
    · rcases hcases hhandler with hbefore | rfl
      · exact hinv.admin_of_handler hbefore hrely
      · rw [hrelies userId] at hrely
        cases hrely
    · exact hinv.admins (reliesOn_iff.mpr (.inr (.inl hturn)))
    · have huse : world.inUse attempt = true := by
        rcases inUse_iff.mp huse with hcached | ⟨id, handler, hhandler, hwait⟩
        · exact inUse_iff.mpr (.inl hcached)
        · rcases hcases hhandler with hbefore | rfl
          · exact inUse_iff.mpr (.inr ⟨id, handler, hbefore, hwait⟩)
          · rw [hwaits attempt] at hwait
            cases hwait
      exact hinv.admins (reliesOn_iff.mpr (.inr (.inr ⟨attempt, session, huse, hsession⟩)))

theorem Inv.restart (hinv : Inv world) : Inv { world with store := {}, handlers := [] } where
  sound := hinv.sound
  slots h := nomatch h
  opened h := nomatch h
  handlers h := nomatch h
  turns := hinv.turns
  submissions := hinv.submissions
  admins := by
    intro userId h
    rcases reliesOn_iff.mp h with ⟨id, handler, hhandler, _⟩ | hturn | ⟨_, _, _, hfuture, _⟩
    · cases hhandler
    · exact hinv.admins (reliesOn_iff.mpr (.inr (.inl hturn)))
    · cases hfuture

theorem Inv.setRole (hinv : Inv world) {userId : Nat} {role : UserRole}
    (hallowed : undisturbed world (.setRole userId role) = true) :
    Inv { world with directory := world.directory.setRole userId role } := by
  obtain ⟨hsound, hextends, hadmins⟩ := @Directory.setRole_spec _ userId role hinv.sound
  refine hinv.withDirectory hsound hextends fun {other} hrelies hadmin => ?_
  refine hadmins hadmin fun hsame => ?_
  subst hsame
  have hallowed : role = .admin ∨ world.reliesOn other = false := by
    simpa [undisturbed] using hallowed
  rcases hallowed with hrole | hfree
  · exact hrole
  · rw [hfree] at hrelies
    cases hrelies

/-- **The step lemma.** -/
theorem step_inv (action : Action) (hinv : Inv world) (hallowed : undisturbed world action = true)
    (h : step adminUserIds world action = some next) : Inv next := by
  cases action with
  | message message =>
      cases h
      exact hinv.start trivial (fun _ => rfl) fun _ => rfl
  | codexUsage message =>
      simp only [step, Action.handler?] at h
      split at h
      · cases h
        exact hinv.start trivial (fun _ => rfl) fun _ => rfl
      · cases h
  | finalizeOnce turnId status errorCode errorDetail now =>
      cases h
      exact hinv.withUpdate (keeps_finalizeOnce _ _ _ _) turnId
  | reset key =>
      cases h
      exact hinv.withStore (settles_pop world.store key)
  | setRole userId role =>
      cases h
      exact hinv.setRole hallowed
  | restart =>
      cases h
      exact hinv.restart
  | resolve id =>
      obtain ⟨handler, hhandler, h⟩ := Option.bind_eq_some_iff.mp h
      exact hinv.resolve hhandler h
  | prepare id prepared =>
      obtain ⟨handler, hhandler, h⟩ := Option.bind_eq_some_iff.mp h
      exact hinv.prepare hhandler h
  | claimSlot id =>
      obtain ⟨handler, hhandler, h⟩ := Option.bind_eq_some_iff.mp h
      exact hinv.claimSlot hhandler hallowed h
  | bootstrap id =>
      obtain ⟨handler, hhandler, h⟩ := Option.bind_eq_some_iff.mp h
      exact hinv.bootstrap hhandler h
  | fulfilSlot id =>
      obtain ⟨handler, hhandler, h⟩ := Option.bind_eq_some_iff.mp h
      exact hinv.fulfilSlot hhandler h
  | join id =>
      obtain ⟨handler, hhandler, h⟩ := Option.bind_eq_some_iff.mp h
      exact hinv.join hhandler h
  | reserveTurn id admitted =>
      obtain ⟨handler, hhandler, h⟩ := Option.bind_eq_some_iff.mp h
      exact hinv.reserveTurn hhandler h
  | checkActive id now =>
      obtain ⟨handler, hhandler, h⟩ := Option.bind_eq_some_iff.mp h
      exact hinv.checkActive hhandler h
  | steer id accepted =>
      obtain ⟨handler, hhandler, h⟩ := Option.bind_eq_some_iff.mp h
      exact hinv.steer hhandler h
  | interrupt id interrupted =>
      obtain ⟨handler, hhandler, h⟩ := Option.bind_eq_some_iff.mp h
      exact hinv.interrupt hhandler h
  | createTurn id userMessageId now =>
      obtain ⟨handler, hhandler, h⟩ := Option.bind_eq_some_iff.mp h
      exact hinv.createTurn hhandler h
  | openTurn id outcome now =>
      obtain ⟨handler, hhandler, h⟩ := Option.bind_eq_some_iff.mp h
      exact hinv.openTurn hhandler h
  | markRunning id threadId codexTurnId now =>
      obtain ⟨handler, hhandler, h⟩ := Option.bind_eq_some_iff.mp h
      exact hinv.markRunning h
  | finish id status errorCode errorDetail now =>
      obtain ⟨handler, hhandler, h⟩ := Option.bind_eq_some_iff.mp h
      exact hinv.finish hhandler h
  | raise id =>
      obtain ⟨handler, hhandler, h⟩ := Option.bind_eq_some_iff.mp h
      exact hinv.raise hhandler h
  | cancel id =>
      obtain ⟨handler, hhandler, h⟩ := Option.bind_eq_some_iff.mp h
      exact hinv.cancel hhandler h

theorem inv_empty : Inv {} where
  sound := ⟨nofun, nofun, nofun⟩
  slots h := nomatch h
  opened h := nomatch h
  handlers h := nomatch h
  turns h := nomatch h
  submissions h := nomatch h
  admins h := nomatch h

/-- **Admin sidecar authorization.** While every message takes a session that its sender may have,
and no admin loses the role under a session or a turn, every message that reaches a sidecar does so
as its sender. -/
theorem submissions_authorized
    (hreach : Reach (step adminUserIds) (fun world action => undisturbed world action = true) {}
      world) : ∀ submission ∈ world.submissions, submission.Authorized := by
  have hinv : Inv world :=
    hreach.invariant Inv inv_empty fun _ action _ hinv hallowed hstep =>
      step_inv action hinv hallowed hstep
  exact fun submission hmem => hinv.submissions hmem

end

/-- A message without attachments, from its arrival to the reservation of its turn. -/
def arrives (id : Nat) (message : Message) (opening : List Action) : List Action :=
  [.message message, .resolve id, .prepare id (some ⟨"hi", [], [], none⟩), .claimSlot id] ++ opening ++
    [.reserveTurn id true, .checkActive id 0]

def startsTurn (id : Nat) : List Action :=
  [.createTurn id 0 0, .openTurn id .acquired 0, .markRunning id "thread" "turn" 0]

/-- An admin sends two messages, and the second one is a steer. -/
def ownMessages : List Action :=
  arrives 0 ⟨7, 7, none⟩ [.bootstrap 0, .fulfilSlot 0] ++ startsTurn 0 ++
    arrives 1 ⟨7, 7, none⟩ [.join 1] ++ [.steer 1 true]

theorem submissions_authorized_own : ∃ world, run (step [7]) {} ownMessages = some world ∧
    world.submissions.map Submission.kind = [.newTurn, .steer] ∧
      ∀ submission ∈ world.submissions, submission.Authorized := by
  have hallowed : RunAllowed (step [7]) (fun world action => undisturbed world action = true) {}
      ownMessages := by decide +kernel
  have hkinds : (run (step [7]) {} ownMessages).map (fun world =>
      world.submissions.map Submission.kind) = some [.newTurn, .steer] := by decide +kernel
  obtain ⟨world, hrun, hkinds⟩ := Option.map_eq_some_iff.mp hkinds
  exact ⟨world, hrun, hkinds, submissions_authorized (reach_of_run hrun hallowed)⟩

/-- An admin opens the session of a group, and a guest's message runs as the admin. A user who is no
admin any more keeps the admin sidecar as long as the session is cached. -/
theorem submission_unauthorized :
    (run (step [7]) {} (arrives 0 ⟨7, -5, none⟩ [.bootstrap 0, .fulfilSlot 0] ++ startsTurn 0 ++
        [.finish 0 .completed none none 0] ++ arrives 1 ⟨8, -5, none⟩ [.join 1] ++
          startsTurn 1)).any (fun world => world.submissions.any fun submission =>
      submission.sender = 8 ∧ submission.sidecar = .admin ∧ ¬submission.Authorized) = true ∧
    (run (step [7]) {} (arrives 0 ⟨7, 7, none⟩ [.bootstrap 0, .fulfilSlot 0] ++ startsTurn 0 ++
        [.finish 0 .completed none none 0, .setRole 0 .user] ++ arrives 1 ⟨7, 7, none⟩ [.join 1] ++
          startsTurn 1)).any (fun world => world.submissions.any fun submission =>
      submission.sidecar = .admin ∧ ¬submission.Authorized) = true := by
  constructor <;> decide +kernel

end CodexServer.TelegramHandler
