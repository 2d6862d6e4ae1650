import CodexServer.McpAuthz
import CodexServer.Proof.Notes

/-!
# A tool acts for a turn of its chat

A thread is for the chat that it was started for, and stays on its sidecar. So whatever is kept under
its id, in the row of a chat, in a turn or on its way to the sidecar and back, belongs to that chat,
and a token that has come with a request for the thread is of a turn of that chat on that sidecar.
-/

open Transition

namespace CodexServer.McpAuthz

open TelegramHandler (UserRole sidecarOf)

section

variable {Token ρ : Type} {jwt : Jwt Token} {database : Notes.Database ρ} {now later : Nat}
  {userId chatId iat : Nat} {sidecar : SidecarName} {roles : Roles} {token : Token}

/-! ### A token of the server -/

theorem Jwt.verify_issue (hiat : iat ≤ now) :
    jwt.verify now (jwt.issue userId chatId sidecar iat) = .ok ⟨userId, chatId, sidecar, iat⟩ := by
  have hclaims : (payloadOf userId chatId sidecar iat).filter (fun field => field.1 ≠ "iss") =
      [("user_id", .number userId), ("chat_id", .number chatId),
        ("sidecar", .string (sidecarValue sidecar)), ("iat", .number iat)] := by
    simp [payloadOf]
  have hsidecar : Jwt.sidecarName (.string (sidecarValue sidecar)) = some sidecar := by
    cases sidecar <;> rfl
  have hint (number : Nat) : jwt.int (.number number) = some (number : Int) := by
    simp [Jwt.int]
  simp only [Jwt.verify, Jwt.issue, jwt.decode_encode hiat, hclaims]
  simp [Jwt.modelValidate, List.lookup_cons, hint, hsidecar, Jwt.claimNames]

/-- Whom a call is made for: the user if he is still there, as an admin if he is one and the thread is
on the admin sidecar. -/
def identityOf (roles : Roles) (userId chatId : Nat) (sidecar : SidecarName) :
    Except String McpIdentity :=
  match roles userId with
  | none => .error ("unknown_user: " ++ toString (userId : Int))
  | some role => .ok ⟨userId, chatId, if isAdmin role sidecar then .admin else .user⟩

theorem requireIdentity_issue (hiat : iat ≤ now) :
    requireIdentity jwt now roles (some (jwt.issue userId chatId sidecar iat)) =
      identityOf roles userId chatId sidecar := by
  simp only [requireIdentity, Jwt.verify_issue hiat, Except.bind, resolve, getUser, identityOf,
    Int.natCast_nonneg, if_true, Int.toNat_natCast]
  cases roles userId with
  | none => rfl
  | some role => rfl

/-! ### The tools -/

variable {notes after : Notes.State} {supplied : Notes.Supplied} {header : Option Token} {tool : Tool}
  {outcome : Except String (ToolResult ρ)} {identity : McpIdentity}

theorem callNotes_other {request : Notes.Request} {user : Nat} (huser : identity.userId ≠ user)
    (h : callNotes database notes supplied identity request = some (outcome, after)) :
    after.restrict user = notes.restrict user := by
  obtain ⟨⟨response, next⟩, hcall, hdone⟩ := Option.map_eq_some_iff.mp h
  cases hdone
  exact Notes.call_other huser hcall

theorem callNotes_restrict {request : Notes.Request}
    (h : callNotes database notes supplied identity request = some (outcome, after)) :
    callNotes database (notes.restrict identity.userId) supplied identity request =
      some (outcome, after.restrict identity.userId) := by
  obtain ⟨⟨response, next⟩, hcall, hdone⟩ := Option.map_eq_some_iff.mp h
  cases hdone
  exact Option.map_eq_some_iff.mpr ⟨_, Notes.call_restrict rfl hcall, rfl⟩

theorem callNotes_outcome {request : Notes.Request}
    (h : callNotes database notes supplied identity request = some (outcome, after)) :
    outcome ≠ .ok .errors := by
  obtain ⟨⟨response, next⟩, -, hdone⟩ := Option.map_eq_some_iff.mp h
  cases hdone
  simp

/-- A tool writes the notes of the user it acts for. -/
theorem callTool_other {user : Nat}
    (huser : ∀ identity, requireIdentity jwt now roles header = .ok identity → identity.userId ≠ user)
    (h : callTool jwt database now roles notes supplied header tool = some (outcome, after)) :
    after.restrict user = notes.restrict user := by
  unfold callTool at h
  split at h
  · cases h
    rfl
  · next identity hidentity =>
      cases tool with
      | noteSave | noteSearch | noteList => exact callNotes_other (huser identity hidentity) h
      | errors =>
          simp only at h
          split at h <;> (cases h; rfl)
      | showImage =>
          cases h
          rfl

/-- It reads no others. -/
theorem callTool_restrict (hidentity : requireIdentity jwt now roles header = .ok identity)
    (h : callTool jwt database now roles notes supplied header tool = some (outcome, after)) :
    callTool jwt database now roles (notes.restrict identity.userId) supplied header tool =
      some (outcome, after.restrict identity.userId) := by
  simp only [callTool, hidentity] at h ⊢
  cases tool with
  | noteSave | noteSearch | noteList => exact callNotes_restrict h
  | errors =>
      simp only at h ⊢
      split at h <;> (cases h; simp_all)
  | showImage =>
      cases h
      rfl

/-- The errors of the server are shown to an admin. -/
theorem callTool_errors
    (h : callTool jwt database now roles notes supplied header tool = some (.ok .errors, after)) :
    ∃ identity, requireIdentity jwt now roles header = .ok identity ∧ identity.role = .admin := by
  unfold callTool at h
  split at h
  · cases h
  · next identity hidentity =>
      refine ⟨identity, hidentity, ?_⟩
      cases tool with
      | noteSave | noteSearch | noteList => exact absurd rfl (callNotes_outcome h)
      | errors =>
          simp only at h
          split at h
          · assumption
          · cases h
      | showImage => cases h

/-! ### Where a thread belongs -/

/-- The chat that each thread was started for, and the sidecar that has started it. -/
abbrev Home := String → Option (Nat × SidecarName)

def Home.Grows (home next : Home) : Prop :=
  ∀ threadId place, home threadId = some place → next threadId = some place

/-- The turn has a thread. -/
def Point.isOpen : Point → Bool
  | .persisting _ | .running => true
  | _ => false

namespace Opening

variable (opening : Opening Token)

/-- The turn has the id of the thread somewhere. -/
def Names (threadId : String) : Prop :=
  opening.threadId = some threadId ∨ opening.point = .checking threadId ∨
    opening.point = .connecting (some threadId) ∨ opening.point = .resuming threadId ∨
    opening.point = .persisting threadId ∨ opening.request = some (.resume threadId) ∨
    opening.reply = some (.started threadId)

/-- The sidecar has told that it has the thread. -/
def Has (threadId : String) : Prop :=
  (opening.threadId = some threadId ∧ opening.seedHistory = true ∧ opening.point.isOpen = true) ∨
    opening.reply = some (.started threadId) ∨
    (opening.point = .resuming threadId ∧ opening.reply = some .resumed)

/-- The token is one of the turn. -/
def Issued (jwt : Jwt Token) (now : Nat) (token : Token) : Prop :=
  ∃ iat ≤ now, token = jwt.issue opening.userId opening.chatId opening.sidecar iat

/-- The turn keeps to the threads of its chat. -/
structure Fits (jwt : Jwt Token) (now : Nat) (home : Home) : Prop where
  names : ∀ threadId, opening.Names threadId →
    ∃ sidecar, home threadId = some (opening.chatId, sidecar)
  has : ∀ threadId, opening.Has threadId →
    home threadId = some (opening.chatId, opening.sidecar)
  issued : ∀ token, opening.token = some token → opening.Issued jwt now token
  resuming : ∀ threadId, opening.point = .resuming threadId → opening.threadId = some threadId ∧
    ∀ other, opening.request = some (.resume other) → other = threadId

end Opening

/-- The thread is where it was started, and its header is of a turn of its chat on its sidecar. -/
def Thread.Fits (thread : Thread Token) (jwt : Jwt Token) (now : Nat) (home : Home)
    (openings : List (Opening Token)) : Prop :=
  ∃ chatId, home thread.id = some (chatId, thread.sidecar) ∧
    ∀ token, thread.header = some token → ∃ opening ∈ openings, opening.chatId = chatId ∧
      opening.sidecar = thread.sidecar ∧ opening.Issued jwt now token

structure Deployment.Sound (jwt : Jwt Token) (home : Home) (deployment : Deployment Token) :
    Prop where
  openings : ∀ opening ∈ deployment.openings, opening.Fits jwt deployment.now home
  threads : ∀ thread ∈ deployment.threads,
    thread.Fits jwt deployment.now home deployment.openings
  chats : ∀ chatId chat threadId, deployment.chats chatId = some chat →
    chat.codexThreadId = some threadId → ∃ sidecar, home threadId = some (chatId, sidecar)
  known : ∀ threadId place, home threadId = some place →
    ∃ thread ∈ deployment.threads, thread.id = threadId

theorem Opening.connected_same (opening : Opening Token) (jwt : Jwt Token) (initial : Option String)
    (now : Nat) : (opening.connected jwt initial now).userId = opening.userId ∧
      (opening.connected jwt initial now).chatId = opening.chatId ∧
      (opening.connected jwt initial now).isAdmin = opening.isAdmin := by
  cases hseed : opening.seedHistory <;> cases initial <;>
    simp [Opening.connected, Opening.send, hseed]

variable {home next : Home} {opening changed : Opening Token} {thread : Thread Token}
  {openings others : List (Opening Token)} {deployment : Deployment Token} {id : Nat}
  {threadId : String}

theorem Opening.Issued.mono (h : opening.Issued jwt now token) (hle : now ≤ later) :
    opening.Issued jwt later token := by
  obtain ⟨iat, hiat, htoken⟩ := h
  exact ⟨iat, hiat.trans hle, htoken⟩

theorem Opening.Fits.mono (h : opening.Fits jwt now home) (hle : now ≤ later)
    (hgrows : home.Grows next) : opening.Fits jwt later next where
  names threadId hnames := by
    obtain ⟨sidecar, hhome⟩ := h.names threadId hnames
    exact ⟨sidecar, hgrows _ _ hhome⟩
  has threadId hhas := hgrows _ _ (h.has threadId hhas)
  issued token htoken := (h.issued token htoken).mono hle
  resuming := h.resuming

/-- Turns that are still of the same user, chat and sidecar. -/
def Same (openings others : List (Opening Token)) : Prop :=
  ∀ opening ∈ openings, ∃ other ∈ others, other.userId = opening.userId ∧
    other.chatId = opening.chatId ∧ other.isAdmin = opening.isAdmin

theorem Same.refl : Same openings openings := fun opening hopening =>
  ⟨opening, hopening, rfl, rfl, rfl⟩

theorem Same.set (hopening : openings[id]? = some opening) (huser : changed.userId = opening.userId)
    (hchat : changed.chatId = opening.chatId) (hadmin : changed.isAdmin = opening.isAdmin) :
    Same openings (openings.set id changed) := by
  intro other hother
  obtain ⟨index, hindex⟩ := List.mem_iff_getElem?.mp hother
  by_cases heq : index = id
  · subst heq
    obtain rfl := Option.some.inj (hopening.symm.trans hindex)
    have hlt := (List.getElem?_eq_some_iff.mp hopening).1
    exact ⟨changed, List.mem_set hlt changed, huser, hchat, hadmin⟩
  · refine ⟨other, List.mem_of_getElem? (i := index) ?_, rfl, rfl, rfl⟩
    rw [List.getElem?_set_ne (Ne.symm heq), hindex]

theorem Thread.Fits.mono (h : thread.Fits jwt now home openings) (hle : now ≤ later)
    (hgrows : home.Grows next) (hsame : Same openings others) :
    thread.Fits jwt later next others := by
  obtain ⟨chatId, hhome, hheader⟩ := h
  refine ⟨chatId, hgrows _ _ hhome, fun token htoken => ?_⟩
  obtain ⟨opening, hopening, hchat, hsidecar, iat, hiat, hissued⟩ := hheader token htoken
  obtain ⟨other, hother, huser, hchats, hadmin⟩ := hsame opening hopening
  have hsidecars : other.sidecar = opening.sidecar := by simp [Opening.sidecar, hadmin]
  refine ⟨other, hother, hchats.trans hchat, hsidecars.trans hsidecar, iat, hiat.trans hle, ?_⟩
  rw [hissued, huser, hchats, hsidecars]

/-! ### Steps -/

namespace Deployment.Sound

theorem setOpening (h : deployment.Sound jwt home)
    (hopening : deployment.openings[id]? = some opening)
    (huser : changed.userId = opening.userId) (hchat : changed.chatId = opening.chatId)
    (hadmin : changed.isAdmin = opening.isAdmin) (hfits : changed.Fits jwt deployment.now home) :
    (deployment.setOpening id changed).Sound jwt home where
  openings other hother := by
    rcases List.mem_or_eq_of_mem_set hother with hold | rfl
    · exact h.openings other hold
    · exact hfits
  threads thread hthread := (h.threads thread hthread).mono le_rfl (fun _ _ hhome => hhome)
    (.set hopening huser hchat hadmin)
  chats := h.chats
  known := h.known

theorem setCodexThreadId {stored : Option String} (h : deployment.Sound jwt home)
    (hstored : ∀ threadId, stored = some threadId →
      ∃ sidecar, home threadId = some (chatId, sidecar)) :
    (deployment.setCodexThreadId chatId stored).Sound jwt home where
  openings := h.openings
  threads := h.threads
  chats other chat threadId hchat hthread := by
    simp only [Deployment.setCodexThreadId, Function.update_apply] at hchat
    split at hchat
    · next heq =>
        subst heq
        obtain ⟨old, -, rfl⟩ := Option.map_eq_some_iff.mp hchat
        exact hstored threadId hthread
    · exact h.chats other chat threadId hchat hthread
  known := h.known

/-- A thread is changed where it is. -/
theorem setThread {change : Thread Token → Thread Token} (h : deployment.Sound jwt home)
    (hid : ∀ thread, (change thread).id = thread.id)
    (hchange : ∀ thread ∈ deployment.threads, thread.id = threadId →
      (change thread).Fits jwt deployment.now home deployment.openings) :
    ({ deployment with threads := McpAuthz.setThread threadId change deployment.threads } :
      Deployment Token).Sound jwt home where
  openings := h.openings
  threads thread hthread := by
    obtain ⟨old, hold, rfl⟩ := List.mem_map.mp hthread
    split
    · next heq => exact hchange old hold heq
    · exact h.threads old hold
  chats := h.chats
  known threadId place hhome := by
    obtain ⟨thread, hthread, rfl⟩ := h.known threadId place hhome
    refine ⟨_, List.mem_map_of_mem hthread, ?_⟩
    split
    · exact hid thread
    · rfl

/-- A thread is started. -/
theorem append (h : deployment.Sound jwt home) (hopening : opening ∈ deployment.openings)
    (htoken : opening.Issued jwt deployment.now token)
    (hnew : ∀ thread ∈ deployment.threads, thread.id ≠ threadId) :
    home.Grows (Function.update home threadId (some (opening.chatId, opening.sidecar))) ∧
      ({ deployment with
        threads := deployment.threads ++ [⟨threadId, opening.sidecar, true, some token⟩] } :
        Deployment Token).Sound jwt
        (Function.update home threadId (some (opening.chatId, opening.sidecar))) := by
  have hgrows : home.Grows
      (Function.update home threadId (some (opening.chatId, opening.sidecar))) := by
    intro other place hhome
    obtain ⟨thread, hthread, rfl⟩ := h.known other place hhome
    rw [Function.update_of_ne (hnew thread hthread), hhome]
  refine ⟨hgrows, fun other hother => (h.openings other hother).mono le_rfl hgrows,
    fun thread hthread => ?_, fun chatId chat other hchat hother => ?_, fun other place hhome => ?_⟩
  · rcases List.mem_append.mp hthread with hold | hlast
    · exact (h.threads thread hold).mono le_rfl hgrows .refl
    · obtain rfl := List.mem_singleton.mp hlast
      refine ⟨opening.chatId, Function.update_self .., fun other hother => ?_⟩
      obtain rfl := Option.some.inj hother
      exact ⟨opening, hopening, rfl, rfl, htoken⟩
  · obtain ⟨sidecar, hhome⟩ := h.chats chatId chat other hchat hother
    exact ⟨sidecar, hgrows _ _ hhome⟩
  · by_cases heq : other = threadId
    · exact ⟨_, List.mem_append_right _ (List.mem_singleton_self _), heq.symm⟩
    · rw [Function.update_of_ne heq] at hhome
      obtain ⟨thread, hthread, hid⟩ := h.known other place hhome
      exact ⟨thread, List.mem_append_left _ hthread, hid⟩

end Deployment.Sound

/-! ### Turns -/

namespace Opening.Fits

/-- The turn has no thread, and asks for none. -/
theorem quiet {point : Point} {held : Option String} (h : opening.Fits jwt now home)
    (hopen : point.isOpen = false) (hresuming : ∀ threadId, point ≠ .resuming threadId)
    (hheld : ∀ threadId, held = some threadId → opening.threadId = some threadId)
    (hnames : ∀ threadId, point = .checking threadId ∨ point = .connecting (some threadId) →
      ∃ sidecar, home threadId = some (opening.chatId, sidecar)) :
    { opening with point := point, threadId := held }.Fits jwt now home where
  names threadId hnamed := by
    rcases hnamed with hid | hpoint | hpoint | hpoint | hpoint | hrequest | hreply
    · exact h.names threadId (.inl (hheld threadId hid))
    · exact hnames threadId (.inl hpoint)
    · exact hnames threadId (.inr hpoint)
    · exact absurd hpoint (hresuming threadId)
    · rw [show point = .persisting threadId from hpoint] at hopen
      cases hopen
    · exact h.names threadId (by simp [Names, show opening.request = _ from hrequest])
    · exact h.names threadId (by simp [Names, show opening.reply = _ from hreply])
  has threadId hhas := by
    rcases hhas with ⟨-, -, htold⟩ | hreply | ⟨hpoint, -⟩
    · exact absurd (show point.isOpen = true from htold) (by simp [hopen])
    · exact h.has threadId (.inr (.inl hreply))
    · exact absurd hpoint (hresuming threadId)
  issued := h.issued
  resuming threadId hpoint := absurd hpoint (hresuming threadId)

theorem send_start (h : opening.Fits jwt now home) :
    (opening.send .starting .start).Fits jwt now home where
  names threadId hnamed := by
    obtain hid : opening.threadId = some threadId := by simpa [Names, Opening.send] using hnamed
    exact h.names threadId (.inl hid)
  has threadId hhas := by simp [Has, Opening.send, Point.isOpen] at hhas
  issued := h.issued
  resuming threadId hpoint := by simp [Opening.send] at hpoint

theorem connected {initial : Option String} (h : opening.Fits jwt now home)
    (hpoint : opening.point = .connecting initial) :
    (opening.connected jwt initial now).Fits jwt now home := by
  have hinitial : ∀ threadId, initial = some threadId →
      ∃ sidecar, home threadId = some (opening.chatId, sidecar) := by
    rintro threadId rfl
    exact h.names threadId (.inr (.inr (.inl hpoint)))
  have hissued : opening.Issued jwt now
      (jwt.issue opening.userId opening.chatId opening.sidecar now) := ⟨now, le_rfl, rfl⟩
  cases hseed : opening.seedHistory with
  | false =>
      have hconnected : opening.connected jwt initial now = { opening with
          point := .running
          token := some (jwt.issue opening.userId opening.chatId opening.sidecar now)
          threadId := initial } := by
        simp [Opening.connected, hseed]
      rw [hconnected]
      refine ⟨fun other hnamed => ?_, fun other hhas => ?_, fun token htoken => ?_,
        fun other hresuming => by cases hresuming⟩
      · rcases hnamed with hid | hother | hother | hother | hother | hrequest | hreply
        · exact hinitial other hid
        · cases hother
        · cases hother
        · cases hother
        · cases hother
        · exact h.names other (by simp [Names, show opening.request = _ from hrequest])
        · exact h.names other (by simp [Names, show opening.reply = _ from hreply])
      · rcases hhas with ⟨-, hseeds, -⟩ | hreply | ⟨hother, -⟩
        · exact absurd (hseed.symm.trans hseeds) Bool.false_ne_true
        · exact h.has other (.inr (.inl hreply))
        · cases hother
      · obtain rfl := Option.some.inj htoken
        exact hissued
  | true =>
      cases initial with
      | some threadId =>
          have hconnected : opening.connected jwt (some threadId) now = { opening with
              point := .resuming threadId
              token := some (jwt.issue opening.userId opening.chatId opening.sidecar now)
              threadId := some threadId, request := some (.resume threadId), reply := none } := by
            simp [Opening.connected, Opening.send, hseed]
          rw [hconnected]
          refine ⟨fun other hnamed => ?_, fun other hhas => ?_, fun token htoken => ?_,
            fun other hresuming => ?_⟩
          · obtain rfl : threadId = other := by simpa [Names] using hnamed
            exact hinitial threadId rfl
          · simp [Has, Point.isOpen] at hhas
          · obtain rfl := Option.some.inj htoken
            exact hissued
          · obtain rfl : threadId = other := by simpa using hresuming
            simp
      | none =>
          have hconnected : opening.connected jwt none now = { opening with
              point := .starting
              token := some (jwt.issue opening.userId opening.chatId opening.sidecar now)
              threadId := none, request := some .start, reply := none } := by
            simp [Opening.connected, Opening.send, hseed]
          rw [hconnected]
          refine ⟨fun other hnamed => ?_, fun other hhas => ?_, fun token htoken => ?_,
            fun other hresuming => by cases hresuming⟩
          · simp [Names] at hnamed
          · simp [Has, Point.isOpen] at hhas
          · obtain rfl := Option.some.inj htoken
            exact hissued

/-- `on_thread_change` has returned. -/
theorem opened (h : opening.Fits jwt now home) (hpoint : opening.point = .persisting threadId) :
    { opening with point := .running }.Fits jwt now home where
  names other hnamed := by
    refine h.names other ?_
    rcases hnamed with hid | hother | hother | hother | hother | hrequest | hreply
    · exact .inl hid
    · cases hother
    · cases hother
    · cases hother
    · cases hother
    · exact .inr (.inr (.inr (.inr (.inr (.inl hrequest)))))
    · exact .inr (.inr (.inr (.inr (.inr (.inr hreply)))))
  has other hhas := by
    refine h.has other ?_
    rcases hhas with ⟨hid, hseed, -⟩ | hreply | ⟨hother, -⟩
    · exact .inl ⟨hid, hseed, by rw [hpoint]; rfl⟩
    · exact .inr (.inl hreply)
    · cases hother
  issued := h.issued
  resuming other hother := by cases hother

/-- The sidecar replies. -/
theorem replied {reply : Reply} (h : opening.Fits jwt now home)
    (hstarted : ∀ threadId, reply = .started threadId →
      home threadId = some (opening.chatId, opening.sidecar))
    (hresumed : ∀ threadId, reply = .resumed → opening.request = some (.resume threadId) →
      home threadId = some (opening.chatId, opening.sidecar))
    (hrequest : reply = .resumed → ∃ threadId, opening.request = some (.resume threadId)) :
    { opening with request := none, reply := some reply }.Fits jwt now home where
  names threadId hnamed := by
    rcases hnamed with hid | hpoint | hpoint | hpoint | hpoint | hnone | hreply
    · exact h.names threadId (.inl hid)
    · exact h.names threadId (.inr (.inl hpoint))
    · exact h.names threadId (.inr (.inr (.inl hpoint)))
    · exact h.names threadId (.inr (.inr (.inr (.inl hpoint))))
    · exact h.names threadId (.inr (.inr (.inr (.inr (.inl hpoint)))))
    · cases hnone
    · exact ⟨_, hstarted threadId (Option.some.inj hreply)⟩
  has threadId hhas := by
    rcases hhas with htold | hreply | ⟨hpoint, hreply⟩
    · exact h.has threadId (.inl htold)
    · exact hstarted threadId (Option.some.inj hreply)
    · have hreply : reply = .resumed := Option.some.inj hreply
      obtain ⟨other, hother⟩ := hrequest hreply
      obtain rfl := (h.resuming threadId hpoint).2 other hother
      exact hresumed other hreply hother
  issued := h.issued
  resuming threadId hpoint := ⟨(h.resuming threadId hpoint).1, by simp⟩

theorem receive (h : opening.Fits jwt now home) (hreceive : opening.receive = some changed) :
    changed.Fits jwt now home ∧ changed.userId = opening.userId ∧
      changed.chatId = opening.chatId ∧ changed.isAdmin = opening.isAdmin := by
  unfold Opening.receive at hreceive
  split at hreceive
  · next threadId hpoint hreply =>
      obtain rfl := Option.some.inj hreceive
      have hid := (h.resuming threadId hpoint).1
      have hhome := h.has threadId (.inr (.inr ⟨hpoint, hreply⟩))
      refine ⟨⟨fun other hnamed => ?_, fun other hhas => ?_, h.issued,
        fun other hother => by cases hother⟩, rfl, rfl, rfl⟩
      · have hnamed : opening.Names other := by
          rcases hnamed with hother | hother | hother | hother | hother | hrequest | hstarted
          · exact .inl hother
          · cases hother
          · cases hother
          · cases hother
          · cases hother
          · exact .inr (.inr (.inr (.inr (.inr (.inl hrequest)))))
          · exact .inr (.inr (.inr (.inr (.inr (.inr hstarted)))))
        exact h.names other hnamed
      · rcases hhas with ⟨hother, -, -⟩ | hstarted | ⟨hother, -⟩
        · obtain rfl := Option.some.inj (hid.symm.trans hother)
          exact hhome
        · exact h.has other (.inr (.inl hstarted))
        · cases hother
  · obtain rfl := Option.some.inj hreceive
    exact ⟨h.quiet rfl (by simp) (by simp) (by simp), rfl, rfl, rfl⟩
  · next threadId hpoint hreply =>
      obtain rfl := Option.some.inj hreceive
      have hhome := h.has threadId (.inr (.inl hreply))
      refine ⟨⟨fun other hnamed => ?_, fun other hhas => ?_, h.issued,
        fun other hother => by cases hother⟩, rfl, rfl, rfl⟩
      · rcases hnamed with hother | hother | hother | hother | hother | hrequest | hstarted
        · obtain rfl : threadId = other := Option.some.inj hother
          exact ⟨_, hhome⟩
        · cases hother
        · cases hother
        · cases hother
        · cases hother
          exact ⟨_, hhome⟩
        · exact h.names other (by simp [Names, show opening.request = _ from hrequest])
        · exact ⟨_, h.has other (.inr (.inl hstarted))⟩
      · rcases hhas with ⟨hother, -, -⟩ | hstarted | ⟨hother, -⟩
        · obtain rfl : threadId = other := Option.some.inj hother
          exact hhome
        · exact h.has other (.inr (.inl hstarted))
        · cases hother
  · obtain rfl := Option.some.inj hreceive
    exact ⟨h.quiet rfl (by simp) (fun _ hid => hid) (by simp), rfl, rfl, rfl⟩
  · obtain rfl := Option.some.inj hreceive
    exact ⟨h.quiet rfl (by simp) (fun _ hid => hid) (by simp), rfl, rfl, rfl⟩
  · cases hreceive

end Opening.Fits

/-! ### Runs -/

variable {threadReuseEnabled : Bool} {action : Action} {later : Deployment Token}

theorem Deployment.Sound.tick (h : deployment.Sound jwt home) :
    ({ deployment with now := deployment.now + 1 } : Deployment Token).Sound jwt home where
  openings opening hopening :=
    (h.openings opening hopening).mono (Nat.le_succ _) (fun _ _ hhome => hhome)
  threads thread hthread :=
    (h.threads thread hthread).mono (Nat.le_succ _) (fun _ _ hhome => hhome) .refl
  chats := h.chats
  known := h.known

/-- A request is served. -/
theorem Deployment.Sound.serve {request : Request} {reply : Reply} {threads : List (Thread Token)}
    (h : deployment.Sound jwt home) (hopening : deployment.openings[id]? = some opening)
    (hrequest : opening.request = some request) (htoken : opening.token = some token)
    (hserved : deployment.served opening.sidecar token request reply = some threads) :
    ∃ next : Home, ({ deployment.setOpening id
        { opening with request := none, reply := some reply } with
      threads } : Deployment Token).Sound jwt next := by
  have hmem := List.mem_of_getElem? hopening
  have hfits := h.openings opening hmem
  have hissued := hfits.issued token htoken
  have hkept (hstart : ∀ threadId, reply ≠ .started threadId) (hresume : reply ≠ .resumed) :
      (deployment.setOpening id
        { opening with request := none, reply := some reply }).Sound jwt home :=
    h.setOpening hopening rfl rfl rfl (hfits.replied
      (fun threadId heq => absurd heq (hstart threadId))
      (fun _ heq => absurd heq hresume) (fun heq => absurd heq hresume))
  unfold Deployment.served at hserved
  split at hserved
  · next threadId =>
      split at hserved
      · next hstored =>
          obtain rfl := Option.some.inj hserved
          simp only [List.any_eq_true, Bool.and_eq_true, decide_eq_true_eq] at hstored
          obtain ⟨found, hfound, ⟨hid, hsidecar⟩, -⟩ := hstored
          obtain ⟨sidecar, hnamed⟩ := hfits.names threadId (by simp [Opening.Names, hrequest])
          have hplace : ∀ thread ∈ deployment.threads, thread.id = threadId →
              home threadId = some (opening.chatId, opening.sidecar) ∧
                thread.sidecar = opening.sidecar := by
            intro thread hthread hthreadId
            obtain ⟨chatId, hhome, -⟩ := h.threads found hfound
            obtain ⟨other, hother, -⟩ := h.threads thread hthread
            rw [hid, hsidecar] at hhome
            rw [hthreadId, hhome] at hother
            rw [hnamed] at hhome
            simp only [Option.some.injEq, Prod.mk.injEq] at hhome hother
            exact ⟨by rw [hnamed, hhome.2], hother.2.symm⟩
          have hset : (deployment.setOpening id
              { opening with request := none, reply := some .resumed }).Sound jwt home :=
            h.setOpening hopening rfl rfl rfl (hfits.replied (fun _ heq => by cases heq)
              (fun other _ hother => by
                obtain rfl : threadId = other := by simpa [hrequest] using hother
                exact (hplace found hfound hid).1)
              (fun _ => ⟨threadId, hrequest⟩))
          refine ⟨home, hset.setThread (fun _ => rfl) fun thread hthread hthreadId => ?_⟩
          obtain ⟨hhome, hthreadSidecar⟩ := hplace thread hthread hthreadId
          obtain ⟨chatId, hplaced, hheader⟩ := hset.threads thread hthread
          refine ⟨chatId, hplaced, fun other hother => ?_⟩
          cases hold : thread.header with
          | some kept =>
              obtain rfl : kept = other := by simpa [Thread.resume, hold] using hother
              exact hheader kept hold
          | none =>
              obtain rfl : token = other := by simpa [Thread.resume, hold] using hother
              rw [hthreadId, hhome] at hplaced
              simp only [Option.some.injEq, Prod.mk.injEq] at hplaced
              exact ⟨_, List.mem_set (List.getElem?_eq_some_iff.mp hopening).1 _, hplaced.1,
                hplaced.2, hissued⟩
      · cases hserved
  · next threadId =>
      split at hserved
      · cases hserved
      · next hfresh =>
          obtain rfl := Option.some.inj hserved
          have hnew : ∀ thread ∈ deployment.threads, thread.id ≠ threadId := by
            simpa using hfresh
          obtain ⟨hgrows, hsound⟩ := h.append hmem hissued hnew
          refine ⟨_, hsound.setOpening hopening rfl rfl rfl ((hfits.mono le_rfl hgrows).replied
            (fun other heq => ?_) (fun _ heq => by cases heq) (fun heq => by cases heq))⟩
          obtain rfl : threadId = other := by simpa using heq
          exact Function.update_self ..
  · obtain rfl := Option.some.inj hserved
    exact ⟨home, hkept (by simp) (by simp)⟩
  · obtain rfl := Option.some.inj hserved
    exact ⟨home, hkept (by simp) (by simp)⟩
  · obtain rfl := Option.some.inj hserved
    exact ⟨home, hkept (by simp) (by simp)⟩
  · cases hserved

/-- A stored thread is of its chat. -/
theorem Deployment.Sound.stored (h : deployment.Sound jwt home)
    (hstored : (deployment.chats chatId).bind Chat.codexThreadId = some threadId) :
    ∃ sidecar, home threadId = some (chatId, sidecar) := by
  obtain ⟨chat, hchat, hthread⟩ := Option.bind_eq_some_iff.mp hstored
  exact h.chats chatId chat threadId hchat hthread

/-- A chat that is written has the thread it had, or none. -/
theorem Deployment.Sound.setChats (h : deployment.Sound jwt home) {chats : Nat → Option Chat}
    (hchats : ∀ chatId chat, chats chatId = some chat →
      chat.codexThreadId = none ∨ deployment.chats chatId = some chat) :
    { deployment with chats := chats }.Sound jwt home := by
  refine ⟨h.openings, h.threads, fun chatId chat threadId hchat hthread => ?_, h.known⟩
  rcases hchats chatId chat hchat with hnone | hold
  · rw [hnone] at hthread
    cases hthread
  · exact h.chats chatId chat threadId hold hthread

theorem Deployment.Sound.openTurn (h : deployment.Sound jwt home) {userId : Nat}
    {isAdmin seedHistory : Bool} (hstep : deployment.step jwt database threadReuseEnabled
      (.openTurn chatId userId isAdmin seedHistory) = some later) : later.Sound jwt home := by
  cases hstep
  refine ⟨fun opening hopening => ?_, fun thread hthread => ?_, h.chats, h.known⟩
  · rcases List.mem_append.mp hopening with hold | hlast
    · exact h.openings opening hold
    · obtain rfl := List.mem_singleton.mp hlast
      exact ⟨fun _ hnamed => by simp [Opening.Names] at hnamed,
        fun _ hhas => by simp [Opening.Has] at hhas, (fun _ htoken => by cases htoken),
        (fun _ hpoint => by cases hpoint)⟩
  · exact (h.threads thread hthread).mono le_rfl (fun _ _ hhome => hhome)
      fun opening hopening => ⟨opening, List.mem_append_left _ hopening, rfl, rfl, rfl⟩

/-- What is loaded is the thread of the chat, and only where threads are used again. -/
theorem Deployment.Sound.load (h : deployment.Sound jwt home) {id : Nat}
    (hstep : deployment.step jwt database threadReuseEnabled (.load id) = some later) :
    later.Sound jwt home := by
  obtain ⟨opening, hopening, hstep⟩ := Option.bind_eq_some_iff.mp hstep
  have hfits := h.openings opening (List.mem_of_getElem? hopening)
  split at hstep
  · cases hstep
    refine h.setOpening hopening rfl rfl rfl ?_
    have hplain : { opening with point := .connecting none }.Fits jwt deployment.now home :=
      hfits.quiet rfl (by simp) (fun _ hid => hid) (by simp)
    cases hstored : (deployment.chats opening.chatId).bind Chat.codexThreadId with
    | none => exact hplain
    | some threadId =>
        cases threadReuseEnabled with
        | false => exact hplain
        | true =>
            refine hfits.quiet rfl (by simp [afterLoading]) (fun _ hid => hid)
              fun other hnamed => ?_
            obtain rfl : threadId = other := by simpa [afterLoading] using hnamed
            exact h.stored hstored
  · cases hstep

theorem Deployment.Sound.check (h : deployment.Sound jwt home) {id : Nat} {quarantined : Bool}
    (hstep : deployment.step jwt database threadReuseEnabled (.check id quarantined) = some later) :
    later.Sound jwt home := by
  obtain ⟨opening, hopening, hstep⟩ := Option.bind_eq_some_iff.mp hstep
  have hfits := h.openings opening (List.mem_of_getElem? hopening)
  split at hstep
  · next threadId hpoint =>
      cases hstep
      refine h.setOpening hopening rfl rfl rfl
        (hfits.quiet rfl (by simp) (fun _ hid => hid) fun other hnamed => ?_)
      obtain ⟨-, rfl⟩ : quarantined = false ∧ threadId = other := by simpa using hnamed
      exact hfits.names threadId (.inr (.inl hpoint))
  · cases hstep

/-- The chat forgets its thread, or has the one that the turn has opened. -/
theorem Deployment.Sound.chatChanged (h : deployment.Sound jwt home) {id : Nat} {committed : Bool}
    (hstep : deployment.step jwt database threadReuseEnabled (.changed id committed) =
      some later) : later.Sound jwt home := by
  obtain ⟨opening, hopening, hstep⟩ := Option.bind_eq_some_iff.mp hstep
  have hfits := h.openings opening (List.mem_of_getElem? hopening)
  split at hstep
  · cases hstep
    have hsound : (deployment.setOpening id (opening.send .starting .start)).Sound jwt home :=
      h.setOpening hopening rfl rfl rfl hfits.send_start
    cases committed with
    | true => exact hsound.setCodexThreadId fun _ hnone => by cases hnone
    | false => exact hsound
  · next threadId hpoint =>
      cases hstep
      have hsound : (deployment.setOpening id
          { opening with point := .running }).Sound jwt home :=
        h.setOpening hopening rfl rfl rfl (hfits.opened hpoint)
      cases committed with
      | true =>
          refine hsound.setCodexThreadId fun other hother => ?_
          obtain rfl := Option.some.inj hother
          exact hfits.names threadId (by simp [Opening.Names, hpoint])
      | false => exact hsound
  · cases hstep

theorem Deployment.Sound.lose (h : deployment.Sound jwt home) {id : Nat}
    (hstep : deployment.step jwt database threadReuseEnabled (.lose id) = some later) :
    later.Sound jwt home := by
  obtain ⟨opening, hopening, hstep⟩ := Option.bind_eq_some_iff.mp hstep
  have hfits := h.openings opening (List.mem_of_getElem? hopening)
  split at hstep
  · cases hstep
    have hquiet : { opening with point := .resetting, threadId := none }.Fits jwt
        deployment.now home :=
      hfits.quiet rfl (by simp) (by simp) (by simp)
    exact h.setOpening hopening rfl rfl rfl
      ⟨hquiet.names, hquiet.has, hquiet.issued, hquiet.resuming⟩
  · cases hstep

theorem Deployment.Sound.step (h : deployment.Sound jwt home)
    (hstep : deployment.step jwt database threadReuseEnabled action = some later) :
    ∃ next : Home, later.Sound jwt next := by
  cases action with
  | tick =>
      cases hstep
      exact ⟨home, h.tick⟩
  | setUser userId role =>
      cases hstep
      exact ⟨home, h.openings, h.threads, h.chats, h.known⟩
  | createChat chatId =>
      obtain ⟨-, hsame⟩ := Option.ite_none_left_eq_some.mp hstep
      cases hsame
      refine ⟨home, h.setChats fun other chat hchat => ?_⟩
      simp only [Function.update_apply] at hchat
      split at hchat
      · cases hchat
        exact .inl rfl
      · exact .inr hchat
  | deleteChat chatId =>
      cases hstep
      refine ⟨home, h.setChats fun other chat hchat => ?_⟩
      simp only [Function.update_apply] at hchat
      split at hchat
      · cases hchat
      · exact .inr hchat
  | clearThread chatId =>
      cases hstep
      exact ⟨home, h.setCodexThreadId fun _ hnone => by cases hnone⟩
  | openTurn chatId userId isAdmin seedHistory => exact ⟨home, h.openTurn hstep⟩
  | load id => exact ⟨home, h.load hstep⟩
  | check id quarantined => exact ⟨home, h.check hstep⟩
  | connect id =>
      obtain ⟨opening, hopening, hstep⟩ := Option.bind_eq_some_iff.mp hstep
      have hfits := h.openings opening (List.mem_of_getElem? hopening)
      split at hstep
      · next initial hpoint =>
          cases hstep
          obtain ⟨huser, hchat, hadmin⟩ := opening.connected_same jwt initial deployment.now
          exact ⟨home, h.setOpening hopening huser hchat hadmin (hfits.connected hpoint)⟩
      · cases hstep
  | serve id reply =>
      obtain ⟨opening, hopening, hstep⟩ := Option.bind_eq_some_iff.mp hstep
      obtain ⟨request, hrequest, hstep⟩ := Option.bind_eq_some_iff.mp hstep
      obtain ⟨token, htoken, hstep⟩ := Option.bind_eq_some_iff.mp hstep
      obtain ⟨threads, hserved, hstep⟩ := Option.bind_eq_some_iff.mp hstep
      cases hstep
      exact h.serve hopening hrequest htoken hserved
  | receive id =>
      obtain ⟨opening, hopening, hstep⟩ := Option.bind_eq_some_iff.mp hstep
      obtain ⟨changed, hreceive, hstep⟩ := Option.bind_eq_some_iff.mp hstep
      cases hstep
      obtain ⟨hfits, huser, hchat, hadmin⟩ :=
        (h.openings opening (List.mem_of_getElem? hopening)).receive hreceive
      exact ⟨home, h.setOpening hopening huser hchat hadmin hfits⟩
  | changed id committed => exact ⟨home, h.chatChanged hstep⟩
  | lose id => exact ⟨home, h.lose hstep⟩
  | close id =>
      obtain ⟨opening, hopening, hstep⟩ := Option.bind_eq_some_iff.mp hstep
      cases hstep
      exact ⟨home, h.setOpening hopening rfl rfl rfl
        ((h.openings opening (List.mem_of_getElem? hopening)).quiet rfl (by simp) (fun _ hid => hid)
          (by simp))⟩
  | unload threadId | forget threadId =>
      cases hstep
      refine ⟨home, h.setThread (fun _ => rfl) fun thread hthread _ => ?_⟩
      obtain ⟨chatId, hhome, -⟩ := h.threads thread hthread
      exact ⟨chatId, hhome, fun _ hnone => by cases hnone⟩
  | callTool threadId supplied tool =>
      obtain ⟨done, -, hstep⟩ := Option.bind_eq_some_iff.mp hstep
      cases hstep
      exact ⟨home, h.openings, h.threads, h.chats, h.known⟩

theorem reach_sound {Allowed : Deployment Token → Action → Prop} {notes : Notes.State}
    (hreach : Reach (Deployment.step jwt database threadReuseEnabled) Allowed (.start roles notes)
      deployment) : ∃ home : Home, deployment.Sound jwt home := by
  refine hreach.invariant (fun deployment => ∃ home : Home, deployment.Sound jwt home) ?_
    fun before action after h _ hstep => h.elim fun home hsound => hsound.step hstep
  refine ⟨fun _ => none, fun _ hmem => ?_, fun _ hmem => ?_, fun _ _ _ hchat => ?_,
    fun _ _ hhome => ?_⟩
  · exact absurd hmem List.not_mem_nil
  · exact absurd hmem List.not_mem_nil
  · cases hchat
  · cases hhome

/-- The header of a turn that runs is of a turn of its chat on its sidecar. -/
theorem Deployment.Sound.header_issued (h : deployment.Sound jwt home)
    (hopening : opening ∈ deployment.openings) (hrunning : opening.point = .running)
    (hseed : opening.seedHistory = true) (hthread : opening.threadId = some threadId)
    (hheader : deployment.header threadId = some token) :
    ∃ other ∈ deployment.openings, other.chatId = opening.chatId ∧
      other.sidecar = opening.sidecar ∧ other.Issued jwt deployment.now token := by
  obtain ⟨thread, hfind, htoken⟩ := Option.bind_eq_some_iff.mp hheader
  obtain rfl : thread.id = threadId := by simpa using List.find?_some hfind
  obtain ⟨chatId, hhome, hissued⟩ := h.threads thread (List.mem_of_find?_eq_some hfind)
  obtain ⟨other, hother, hchat, hsidecar, htokens⟩ := hissued token htoken
  have hplace := (h.openings opening hopening).has thread.id
    (.inl ⟨hthread, hseed, by rw [hrunning]; rfl⟩)
  rw [hhome] at hplace
  simp only [Option.some.injEq, Prod.mk.injEq] at hplace
  exact ⟨other, hother, hchat.trans hplace.1, hsidecar.trans hplace.2, htokens⟩

/-- **A tool acts for a turn of its chat.** A call of a tool from the thread of a turn that runs is
for the user of a turn of that chat on that sidecar, so for the user of the turn itself where all
turns of the chat have been his. It is in that chat, and with the rights of an admin just if the
user's row says so by now and the turn runs on the admin sidecar. It answers from his notes and leaves
those of the others as they are, and shows the errors of the server to an admin alone. -/
theorem tools_act_for_turn {notes : Notes.State}
    (hreach : Reach (Deployment.step jwt database threadReuseEnabled) (fun _ _ => True)
      (.start roles notes) deployment)
    (hopening : opening ∈ deployment.openings) (hrunning : opening.point = .running)
    (hseed : opening.seedHistory = true) (hthread : opening.threadId = some threadId)
    (hheader : deployment.header threadId = some token) :
    ∃ userId, (∃ other ∈ deployment.openings, other.chatId = opening.chatId ∧
        other.sidecar = opening.sidecar ∧ other.userId = userId) ∧
      ((∀ other ∈ deployment.openings, other.chatId = opening.chatId →
        other.userId = opening.userId) → userId = opening.userId) ∧
      requireIdentity jwt deployment.now deployment.roles (some token) =
        identityOf deployment.roles userId opening.chatId opening.sidecar ∧
      ∀ (supplied : Notes.Supplied) (tool : Tool) (outcome : Except String (ToolResult ρ))
        (after : Notes.State), callTool jwt database deployment.now deployment.roles deployment.notes
          supplied (some token) tool = some (outcome, after) →
        (∀ user, user ≠ userId → after.restrict user = deployment.notes.restrict user) ∧
        ((deployment.roles userId).isSome = true → callTool jwt database deployment.now
          deployment.roles (deployment.notes.restrict userId) supplied (some token) tool =
            some (outcome, after.restrict userId)) ∧
        (outcome = .ok .errors →
          deployment.roles userId = some .admin ∧ opening.sidecar = .admin) := by
  obtain ⟨home, hsound⟩ := reach_sound hreach
  obtain ⟨other, hother, hchat, hsidecar, iat, hiat, rfl⟩ :=
    hsound.header_issued hopening hrunning hseed hthread hheader
  have hrequire : requireIdentity jwt deployment.now deployment.roles
      (some (jwt.issue other.userId opening.chatId opening.sidecar iat)) =
        identityOf deployment.roles other.userId opening.chatId opening.sidecar :=
    requireIdentity_issue hiat
  rw [hchat, hsidecar]
  have hidentity : ∀ identity, requireIdentity jwt deployment.now deployment.roles
      (some (jwt.issue other.userId opening.chatId opening.sidecar iat)) = .ok identity →
      ∃ role, deployment.roles other.userId = some role ∧ identity = ⟨other.userId, opening.chatId,
        if isAdmin role opening.sidecar then .admin else .user⟩ := by
    intro identity hok
    rw [hrequire, identityOf] at hok
    split at hok
    · cases hok
    · next role hrole => exact ⟨role, hrole, (Except.ok.inj hok).symm⟩
  refine ⟨other.userId, ⟨other, hother, hchat, hsidecar, rfl⟩, fun hsame => hsame other hother hchat,
    hrequire, fun supplied tool outcome after hcall => ⟨fun user huser => ?_, fun hsome => ?_,
      fun herrors => ?_⟩⟩
  · refine callTool_other (fun identity hok => ?_) hcall
    obtain ⟨role, -, rfl⟩ := hidentity identity hok
    exact Ne.symm huser
  · obtain ⟨role, hrole⟩ := Option.isSome_iff_exists.mp hsome
    have hok : requireIdentity jwt deployment.now deployment.roles
        (some (jwt.issue other.userId opening.chatId opening.sidecar iat)) = .ok ⟨other.userId,
          opening.chatId, if isAdmin role opening.sidecar then .admin else .user⟩ := by
      rw [hrequire, identityOf, hrole]
    exact callTool_restrict hok hcall
  · subst herrors
    obtain ⟨identity, hok, hrole⟩ := callTool_errors hcall
    obtain ⟨role, hrow, rfl⟩ := hidentity identity hok
    have hadmin : role = .admin ∧ opening.sidecar = .admin := by simpa [isAdmin] using hrole
    exact ⟨hrow.trans (congrArg some hadmin.1), hadmin.2⟩

end

/-! ### A chat of two users -/

/-- Tokens that are not signed. -/
def plainJwt : Jwt Payload where
  encode payload := payload
  decode now payload :=
    match payload.lookup "iss", payload.lookup "iat" with
    | some (.string name), some (.number iat) =>
        if name ≠ issuer then .error "Invalid issuer"
        else if (now : ℚ) < iat then .error "The token is not yet valid (iat)"
        else .ok payload
    | _, _ => .error "Token is missing the \"iss\" claim"
  intOfText _ := none
  complaint _ := ""
  decode_encode hiat := by
    simpa [payloadOf, List.lookup_cons, issuer] using Rat.natCast_le_natCast.mpr hiat

def twoUsers : Roles
  | 1 => some .admin
  | 2 => some .user
  | _ => none

/-- A turn of the chat 5, with what comes of the request for its thread. -/
def turn (id userId : Nat) (isAdmin : Bool) (reply : Reply) : List Action :=
  [.openTurn 5 userId isAdmin true, .load id] ++
    (if reply = .resumed then [.check id false] else []) ++
    [.connect id, .serve id reply, .receive id]

/-- The admin has a turn in his chat, and is one no more. -/
def demoted : List Action :=
  [.createChat 5] ++ turn 0 1 true (.started "t") ++ [.changed 0 true, .setUser 1 (some .user)]

def runFrom (actions : List Action) : Option (Deployment Payload) :=
  run (Deployment.step plainJwt Notes.plainDatabase true) (.start twoUsers Notes.noNotes) actions

/-- Whom a call from the thread is for. -/
def Deployment.caller (deployment : Deployment Payload) : Option McpIdentity :=
  (requireIdentity plainJwt deployment.now deployment.roles (deployment.header "t")).toOption

/-- What of a turn decides about its tools. -/
structure Held where
  userId : Nat
  chatId : Nat
  point : Point
  seedHistory : Bool
  threadId : Option String
deriving DecidableEq

def Opening.held {Token : Type} (opening : Opening Token) : Held :=
  ⟨opening.userId, opening.chatId, opening.point, opening.seedHistory, opening.threadId⟩

theorem tools_act_for_turn_demoted : ∃ deployment, runFrom demoted = some deployment ∧
    deployment.caller = some ⟨1, 5, .user⟩ := by
  have hruns : (runFrom demoted).any (fun deployment =>
      deployment.openings.map Opening.held = [⟨1, 5, .running, true, some "t"⟩] &&
        (deployment.header "t").isSome && deployment.roles 1 = some .user) = true := by
    decide +kernel
  obtain ⟨deployment, hrun, hdeployment⟩ : ∃ deployment, runFrom demoted = some deployment ∧
      (deployment.openings.map Opening.held = [⟨1, 5, .running, true, some "t"⟩] &&
        (deployment.header "t").isSome && deployment.roles 1 = some .user) = true := by
    rwa [Option.any_eq_true] at hruns
  simp only [Bool.and_eq_true, decide_eq_true_eq] at hdeployment
  obtain ⟨⟨hopenings, hheader⟩, hrole⟩ := hdeployment
  obtain ⟨opening, hopening, hheld⟩ := List.map_eq_singleton_iff.mp hopenings
  obtain ⟨huser, hchat, hrunning, hseed, hthread⟩ := Held.mk.inj hheld
  obtain ⟨token, htoken⟩ := Option.isSome_iff_exists.mp hheader
  obtain ⟨userId, -, hsame, hrequire, -⟩ := tools_act_for_turn (reach_of_run_all hrun)
    (by rw [hopening]; exact List.mem_singleton_self opening) hrunning hseed hthread htoken
  obtain rfl := hsame fun other hother hchat => by
    rw [hopening] at hother
    rw [List.mem_singleton.mp hother]
  refine ⟨deployment, hrun, ?_⟩
  rw [Deployment.caller, htoken, hrequire, huser, hchat, identityOf, hrole]
  rfl

/-- Another user has the next turn in the chat, as one may in a Telegram group, while the sidecar
still has the thread loaded. The calls of his turn are for the first user. -/
example : ((runFrom ([.createChat 5] ++ turn 0 1 true (.started "t") ++
    [.changed 0 true, .close 0] ++ turn 1 2 true .resumed)).bind Deployment.caller) =
      some ⟨1, 5, .admin⟩ := by
  decide +kernel

end CodexServer.McpAuthz
