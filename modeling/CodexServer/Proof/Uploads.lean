import CodexServer.Uploads
import CodexServer.Library.Splitting

/-!
# Rows and their objects

Every key has one owner: the session that has stored the object, then the row it inserts, which is
the session's until the commit. A row loses its object only to a delete of its own.
-/

open Transition

namespace CodexServer.Uploads

/-! ### Keys -/

theorem noSlash_fileName (path : List Char) : '/' ∉ fileName path := by
  unfold fileName
  rw [List.getLastD_eq_getLast?]
  cases hlast : ((path.splitOnP (· == '/')).filter fun part =>
      part ≠ [] && part ≠ ['.']).getLast? with
  | none => simp
  | some part =>
      have hpart := (List.mem_filter.mp (List.mem_of_getLast? hlast)).1
      intro hslash
      have := List.not_of_mem_splitOnP hpart '/' hslash
      simp at this

theorem noSlash_suffix (path : List Char) : '/' ∉ suffix path := by
  simp only [suffix]
  split
  · intro hslash
    rcases List.mem_cons.mp hslash with hdot | hextension
    · exact absurd hdot (by decide)
    · have hname := (List.takeWhile_prefix _).subset (List.mem_reverse.mp hextension)
      exact noSlash_fileName path (List.mem_reverse.mp hname)
  · exact List.not_mem_nil

/-- The key was made with this uuid. -/
def MadeWith (uuid : Uuid) (key : List Char) : Prop :=
  ∃ userId chatId filename, key = objectKey userId chatId uuid filename

theorem MadeWith.unique {uuid uuid' : Uuid} {key : List Char} (h : MadeWith uuid key)
    (h' : MadeWith uuid' key) : uuid = uuid' := by
  obtain ⟨userId, chatId, filename, rfl⟩ := h
  obtain ⟨userId', chatId', filename', hkey⟩ := h'
  have hlast : uuid.hex ++ suffix filename = uuid'.hex ++ suffix filename' := by
    refine List.eq_of_append_cons_eq hkey ?_ ?_
    · simp [uuid.noSlash, noSlash_suffix]
    · simp [uuid'.noSlash, noSlash_suffix]
  have hhex := (List.append_inj hlast (uuid.length.trans uuid'.length.symm)).1
  obtain ⟨hex, _, _⟩ := uuid
  obtain ⟨hex', _, _⟩ := uuid'
  cases hhex
  rfl

/-- **The path of an object decodes to its key.** -/
theorem keyFromS3Path_s3Path (bucket : Bucket) (key : List Char) :
    keyFromS3Path (s3Path bucket key) = some key := by
  have hbegins : "s3://".toList <+: s3Path bucket key := List.prefix_append _ _
  have hdrop : (s3Path bucket key).drop 5 = bucket.name ++ '/' :: key := by
    have hlength : "s3://".toList.length = 5 := rfl
    exact List.drop_left' hlength
  simp only [keyFromS3Path, hbegins, if_true, hdrop, List.dropWhile_append_cons bucket.noSlash]

/-! ### Who owns a key -/

inductive Owner
  /-- The session has stored the object. -/
  | session (index : Nat)
  /-- The row is inserted, not committed. -/
  | pending (index id : Nat)
  | row (id : Nat)

section

variable {guessType : List Char → Option (List Char)} {bucket : Bucket} {system next : System}

/-- What a session holds belongs to it, and its objects are there. -/
structure SessionOwned (owner : List Char → Option Owner) (deleted : List (List Char)) (index : Nat)
    (session : Session) : Prop where
  stored : ∀ upload, session.phase = .stored upload → ∃ key, upload.key = some key ∧
    owner key = some (.session index) ∧ key ∉ deleted
  deleting : ∀ id upload, session.phase = .deleting id upload → ∃ key, upload.key = some key ∧
    (owner key = some (.pending index id) ∨ owner key = some (.row id))
  inserted : ∀ id upload, session.inserted id = some upload → ∃ key, upload.key = some key ∧
    owner key = some (.pending index id) ∧ (id ∉ session.removed → key ∉ deleted)

structure Owned (system : System) (owner : List Char → Option Owner) : Prop where
  made : ∀ key ∈ system.stored, ∃ uuid ∈ system.uuids, MadeWith uuid key
  gone : ∀ key ∈ system.deleted, key ∈ system.stored
  owned : ∀ key, owner key ≠ none → key ∈ system.stored
  sessions : ∀ (index : Nat) session, system.sessions[index]? = some session →
    SessionOwned owner system.deleted index session
  rows : ∀ id upload, system.rows id = some upload → ∃ key, upload.key = some key ∧
    owner key = some (.row id)

/-- Every row has an object that is there, and no two rows the same. -/
structure Intact (system : System) : Prop where
  object : ∀ id upload, system.rows id = some upload → ∃ key, upload.key = some key ∧
    key ∈ system.stored ∧ key ∉ system.deleted
  distinct : ∀ id id' upload upload', system.rows id = some upload →
    system.rows id' = some upload' → upload.key = upload'.key → id = id'

theorem Owned.distinct {owner : List Char → Option Owner} (h : Owned system owner)
    {id id' : Nat} {upload upload' : Upload} (hrow : system.rows id = some upload)
    (hrow' : system.rows id' = some upload') (hsame : upload.key = upload'.key) : id = id' := by
  obtain ⟨key, hkey, howner⟩ := h.rows id upload hrow
  obtain ⟨key', hkey', howner'⟩ := h.rows id' upload' hrow'
  obtain rfl : key = key' := Option.some.inj (hkey.symm.trans (hsame.trans hkey'))
  cases howner.symm.trans howner'
  rfl

/-- The sessions after one of them has gone on. -/
theorem sessions_set {owner : List Char → Option Owner} {deleted : List (List Char)}
    {sessions : List Session} {index : Nat} {session : Session}
    (hothers : ∀ (other : Nat) before, sessions[other]? = some before → other ≠ index →
      SessionOwned owner deleted other before)
    (hsession : SessionOwned owner deleted index session) (other : Nat) (after : Session)
    (hafter : (sessions.set index session)[other]? = some after) :
    SessionOwned owner deleted other after := by
  by_cases hsame : other = index
  · subst hsame
    rw [List.getElem?_set_self (by
      simpa using (List.getElem?_eq_some_iff.mp hafter).1)] at hafter
    cases hafter
    exact hsession
  · rw [List.getElem?_set_ne (Ne.symm hsame)] at hafter
    exact hothers other after hafter hsame

theorem SessionOwned.closed (owner : List Char → Option Owner) (deleted : List (List Char))
    (index : Nat) : SessionOwned owner deleted index .closed :=
  ⟨nofun, nofun, nofun⟩

theorem SessionOwned.lost (owner : List Char → Option Owner) (deleted : List (List Char))
    (index : Nat) : SessionOwned owner deleted index (.lost .idle) :=
  ⟨nofun, nofun, nofun⟩

/-- A session with nothing at hand. -/
theorem SessionOwned.idle {owner : List Char → Option Owner} {deleted : List (List Char)}
    {index : Nat} {session : Session} (h : SessionOwned owner deleted index session) :
    SessionOwned owner deleted index { session with phase := .idle } :=
  ⟨nofun, nofun, h.inserted⟩

/-- A session goes on with what it owns. -/
theorem Owned.setSession {owner : List Char → Option Owner} (h : Owned system owner) {index : Nat}
    {session : Session} (hsession : SessionOwned owner system.deleted index session) :
    Owned (system.setSession index session) owner :=
  ⟨h.made, h.gone, h.owned,
    sessions_set (fun other before hbefore _ => h.sessions other before hbefore) hsession, h.rows⟩

/-! ### The operations -/

variable {owner : List Char → Option Owner} {index : Nat} {session : Session}

theorem made_fresh (h : Owned system owner) {uuid : Uuid} (huuid : uuid ∉ system.uuids)
    (userId : Int) (chatId : Option Int) (filename : List Char) :
    objectKey userId chatId uuid filename ∉ system.stored := by
  intro hstored
  obtain ⟨other, hother, hmade⟩ := h.made _ hstored
  obtain rfl := hmade.unique ⟨userId, chatId, filename, rfl⟩
  exact huuid hother

/-- A new key changes nothing for what is owned. -/
theorem SessionOwned.stay {owner' : List Char → Option Owner} {deleted deleted' : List (List Char)}
    (h : SessionOwned owner deleted index session)
    (howner : ∀ key, owner key ≠ none → owner' key = owner key)
    (hdeleted : ∀ key, owner key ≠ none → key ∉ deleted → key ∉ deleted') :
    SessionOwned owner' deleted' index session := by
  have hsome : ∀ {key holder}, owner key = some holder → owner key ≠ none := by
    intro key holder hkey hnone
    cases hkey.symm.trans hnone
  refine ⟨fun upload hphase => ?_, fun id upload hphase => ?_, fun id upload hinserted => ?_⟩
  · obtain ⟨key, hkey, hholds, hthere⟩ := h.stored upload hphase
    exact ⟨key, hkey, (howner key (hsome hholds)).trans hholds,
      hdeleted key (hsome hholds) hthere⟩
  · obtain ⟨key, hkey, hholds | hholds⟩ := h.deleting id upload hphase
    · exact ⟨key, hkey, .inl ((howner key (hsome hholds)).trans hholds)⟩
    · exact ⟨key, hkey, .inr ((howner key (hsome hholds)).trans hholds)⟩
  · obtain ⟨key, hkey, hholds, hthere⟩ := h.inserted id upload hinserted
    exact ⟨key, hkey, (howner key (hsome hholds)).trans hholds,
      fun hkept => hdeleted key (hsome hholds) (hthere hkept)⟩

theorem Owned.put (h : Owned system owner) (hsession : system.sessions[index]? = some session)
    {source : Source} {userId : Int} {chatId : Option Int} {uuid : Uuid} {outcome : PutOutcome}
    (huuid : uuid ∉ system.uuids) :
    ∃ owner', Owned (put guessType bucket system index session source userId chatId uuid outcome)
      owner' := by
  have howned := h.sessions index session hsession
  have hnew := made_fresh h huuid userId chatId source.resolvedFilename
  have hmade : ∀ key ∈ (if outcome.stores then system.stored ++
      [objectKey userId chatId uuid source.resolvedFilename] else system.stored),
      ∃ other ∈ system.uuids ++ [uuid], MadeWith other key := by
    intro key hkey
    have hcases : key ∈ system.stored ∨
        key = objectKey userId chatId uuid source.resolvedFilename := by
      split at hkey
      · simpa using hkey
      · exact .inl hkey
    rcases hcases with hold | rfl
    · obtain ⟨other, hother, hmade⟩ := h.made key hold
      exact ⟨other, List.mem_append_left _ hother, hmade⟩
    · exact ⟨uuid, List.mem_append_right _ (List.mem_singleton_self _), _, _, _, rfl⟩
  have hmore : ∀ key ∈ system.stored, key ∈ (if outcome.stores then system.stored ++
      [objectKey userId chatId uuid source.resolvedFilename] else system.stored) := by
    intro key hkey
    split
    · exact List.mem_append_left _ hkey
    · exact hkey
  cases outcome with
  | caught object =>
      exact ⟨owner, hmade, fun key hkey => hmore key (h.gone key hkey),
        fun key hkey => hmore key (h.owned key hkey),
        (h.setSession howned.idle).sessions, h.rows⟩
  | raised object =>
      exact ⟨owner, hmade, fun key hkey => hmore key (h.gone key hkey),
        fun key hkey => hmore key (h.owned key hkey),
        (h.setSession (.closed owner system.deleted index)).sessions, h.rows⟩
  | stored =>
      let key := objectKey userId chatId uuid source.resolvedFilename
      have hfree : owner key = none := by
        by_contra hheld
        exact hnew (h.owned key hheld)
      have hother : ∀ other, owner other ≠ none →
          Function.update owner key (some (.session index)) other = owner other := by
        intro other hheld
        refine Function.update_of_ne (fun hsame => hheld ?_) _ _
        rw [hsame]
        exact hfree
      have hstay : ∀ {other : Nat} {before : Session},
          SessionOwned owner system.deleted other before → SessionOwned
            (Function.update owner key (some (.session index))) system.deleted other before :=
        fun hbefore => hbefore.stay hother fun _ _ hthere => hthere
      refine ⟨Function.update owner key (some (.session index)), hmade,
        fun key hkey => hmore key (h.gone key hkey), fun other hheld => ?_, ?_,
        fun id upload hrow => ?_⟩
      · by_cases hsame : other = key
        · subst hsame
          exact List.mem_append_right _ (List.mem_singleton_self _)
        · rw [Function.update_of_ne hsame] at hheld
          exact hmore other (h.owned other hheld)
      · refine sessions_set (fun other before hbefore _ => hstay (h.sessions other before hbefore))
          ⟨?_, nofun, (hstay howned).inserted⟩
        rintro _ ⟨⟩
        exact ⟨key, keyFromS3Path_s3Path bucket key, Function.update_self _ _ _,
          fun hgone => hnew (h.gone key hgone)⟩
      · obtain ⟨other, hkey, hholds⟩ := h.rows id upload hrow
        refine ⟨other, hkey, (hother other fun hnone => ?_).trans hholds⟩
        cases hholds.symm.trans hnone

theorem Owned.flush (h : Owned system owner) (hsession : system.sessions[index]? = some session)
    {upload : Upload} (hphase : session.phase = .stored upload) {outcome : FlushOutcome}
    (hflush : flush system index session upload outcome = some next) :
    ∃ owner', Owned next owner' := by
  have howned := h.sessions index session hsession
  cases outcome with
  | caught =>
      cases hflush
      exact ⟨owner, h.setSession (.lost owner system.deleted index)⟩
  | raised =>
      cases hflush
      exact ⟨owner, h.setSession (.closed owner system.deleted index)⟩
  | flushed =>
      simp only [Uploads.flush] at hflush
      split at hflush
      · cases hflush
      · cases hflush
        obtain ⟨key, hkey, hholds, hthere⟩ := howned.stored upload hphase
        -- The key passes from the session to its row.
        have hother : ∀ other, other ≠ key →
            Function.update owner key (some (.pending index system.nextId)) other = owner other :=
          fun other hne => Function.update_of_ne hne _ _
        have hneSession : ∀ {other id}, owner other = some (.row id) → other ≠ key := by
          rintro other id hrow rfl
          cases hrow.symm.trans hholds
        have hnePending : ∀ {other holder id}, owner other = some (.pending holder id) →
            other ≠ key := by
          rintro other holder id hpending rfl
          cases hpending.symm.trans hholds
        have hothers : ∀ {place : Nat} {before : Session}, place ≠ index →
            SessionOwned owner system.deleted place before → SessionOwned
              (Function.update owner key (some (.pending index system.nextId))) system.deleted
                place before := by
          intro place before hplace hbefore
          refine ⟨fun held hheld => ?_, fun id held hheld => ?_, fun id held hheld => ?_⟩
          · obtain ⟨other, hotherKey, hotherHolds, hotherThere⟩ := hbefore.stored held hheld
            refine ⟨other, hotherKey, (hother other ?_).trans hotherHolds, hotherThere⟩
            rintro rfl
            cases hotherHolds.symm.trans hholds
            exact hplace rfl
          · obtain ⟨other, hotherKey, hotherHolds | hotherHolds⟩ := hbefore.deleting id held hheld
            · exact ⟨other, hotherKey,
                .inl ((hother other (hnePending hotherHolds)).trans hotherHolds)⟩
            · exact ⟨other, hotherKey,
                .inr ((hother other (hneSession hotherHolds)).trans hotherHolds)⟩
          · obtain ⟨other, hotherKey, hotherHolds, hotherThere⟩ := hbefore.inserted id held hheld
            exact ⟨other, hotherKey, (hother other (hnePending hotherHolds)).trans hotherHolds,
              hotherThere⟩
        refine ⟨Function.update owner key (some (.pending index system.nextId)), h.made, h.gone,
          fun other hheld => ?_, ?_, fun id row hrow => ?_⟩
        · by_cases hsame : other = key
          · subst hsame
            exact h.owned other fun hnone => by cases hholds.symm.trans hnone
          · rw [hother other hsame] at hheld
            exact h.owned other hheld
        · refine sessions_set (fun place before hbefore hplace =>
            hothers hplace (h.sessions place before hbefore)) ⟨nofun, nofun, ?_⟩
          intro id held hheld
          by_cases hid : id = system.nextId
          · subst hid
            simp only [Function.update_self, Option.some.injEq] at hheld
            subst hheld
            exact ⟨key, hkey, Function.update_self _ _ _, fun _ => hthere⟩
          · simp only [Function.update_of_ne hid] at hheld
            obtain ⟨other, hotherKey, hotherHolds, hotherThere⟩ := howned.inserted id held hheld
            exact ⟨other, hotherKey, (hother other (hnePending hotherHolds)).trans hotherHolds,
              hotherThere⟩
        · obtain ⟨other, hotherKey, hotherHolds⟩ := h.rows id row hrow
          exact ⟨other, hotherKey, (hother other (hneSession hotherHolds)).trans hotherHolds⟩

theorem Owned.find (h : Owned system owner) (hsession : system.sessions[index]? = some session)
    (id : Nat) (userId : Int) : Owned (find system index session id userId) owner := by
  have howned := h.sessions index session hsession
  unfold Uploads.find
  split
  · rename_i upload hfound
    refine h.setSession ⟨nofun, ?_, howned.inserted⟩
    rintro _ _ ⟨⟩
    have hvisible := (Option.filter_eq_some_iff.mp hfound).1
    unfold System.visible at hvisible
    split at hvisible
    · cases hvisible
    · rcases Option.or_eq_some_iff.mp hvisible with hinserted | ⟨-, hrow⟩
      · obtain ⟨key, hkey, hholds, -⟩ := howned.inserted _ _ hinserted
        exact ⟨key, hkey, .inl hholds⟩
      · obtain ⟨key, hkey, hholds⟩ := h.rows _ _ hrow
        exact ⟨key, hkey, .inr hholds⟩
  · exact h.setSession howned.idle

/-- After the object of one row is gone, every other holder still has its own. -/
theorem Owned.deleteObject (h : Owned system owner)
    (hsession : system.sessions[index]? = some session) {id : Nat} {upload : Upload}
    (hphase : session.phase = .deleting id upload) (outcome : DeleteOutcome) :
    Owned (deleteObject system index session id upload outcome) owner := by
  have howned := h.sessions index session hsession
  obtain ⟨key, hkey, hholds⟩ := howned.deleting id upload hphase
  have hstored : key ∈ system.stored := by
    refine h.owned key fun hnone => ?_
    rcases hholds with hpending | hrow
    · cases hpending.symm.trans hnone
    · cases hrow.symm.trans hnone
  have hdeleted : ∀ other, other ≠ key → other ∉ system.deleted →
      other ∉ if outcome.gone then system.deleted ++ [key] else system.deleted := by
    intro other hne hthere
    split
    · simp [hthere, hne]
    · exact hthere
  have hothers : ∀ {place : Nat} {before : Session}, place ≠ index →
      SessionOwned owner system.deleted place before → SessionOwned owner
        (if outcome.gone then system.deleted ++ [key] else system.deleted) place before := by
    intro place before hplace hbefore
    refine ⟨fun held hheld => ?_, hbefore.deleting, fun other held hheld => ?_⟩
    · obtain ⟨other, hotherKey, hotherHolds, hthere⟩ := hbefore.stored held hheld
      refine ⟨other, hotherKey, hotherHolds, hdeleted other ?_ hthere⟩
      rintro rfl
      rcases hholds with hpending | hrow
      · cases hpending.symm.trans hotherHolds
      · cases hrow.symm.trans hotherHolds
    · obtain ⟨otherKey, hotherKey, hotherHolds, hthere⟩ := hbefore.inserted other held hheld
      refine ⟨otherKey, hotherKey, hotherHolds, fun hkept => hdeleted otherKey ?_ (hthere hkept)⟩
      rintro rfl
      rcases hholds with hpending | hrow
      · cases hpending.symm.trans hotherHolds
        exact hplace rfl
      · cases hrow.symm.trans hotherHolds
  have hown : SessionOwned owner
      (if outcome.gone then system.deleted ++ [key] else system.deleted) index
      { session with phase := .idle, removed := session.removed ++ [id] } := by
    refine ⟨nofun, nofun, fun other held hheld => ?_⟩
    obtain ⟨otherKey, hotherKey, hotherHolds, hthere⟩ := howned.inserted other held hheld
    refine ⟨otherKey, hotherKey, hotherHolds, fun hkept => ?_⟩
    obtain ⟨hold, hne⟩ : other ∉ session.removed ∧ other ≠ id := by simpa using hkept
    refine hdeleted otherKey ?_ (hthere hold)
    rintro rfl
    rcases hholds with hpending | hrow
    · cases hpending.symm.trans hotherHolds
      exact hne rfl
    · cases hrow.symm.trans hotherHolds
  have hgone : ∀ other ∈ (if outcome.gone then system.deleted ++ [key] else system.deleted),
      other ∈ system.stored := by
    intro other hother
    split at hother
    · rcases List.mem_append.mp hother with hold | hnew
      · exact h.gone other hold
      · obtain rfl := List.mem_singleton.mp hnew
        exact hstored
    · exact h.gone other hother
  simp only [Uploads.deleteObject, hkey]
  split
  · exact ⟨h.made, hgone, h.owned, sessions_set (fun place before hbefore hplace =>
      hothers hplace (h.sessions place before hbefore)) (.closed _ _ _), h.rows⟩
  · exact ⟨h.made, hgone, h.owned, sessions_set (fun place before hbefore hplace =>
      hothers hplace (h.sessions place before hbefore)) hown, h.rows⟩

/-- The rows of a session that commits are nobody's any more. -/
def Owner.commit (index : Nat) : Owner → Owner
  | .session place => .session place
  | .pending place id => if place = index then .row id else .pending place id
  | .row id => .row id

theorem Owned.commit (h : Owned system owner) (hsession : system.sessions[index]? = some session)
    (succeeds : Bool) : ∃ owner', Owned (commit system index session succeeds) owner' := by
  have howned := h.sessions index session hsession
  cases succeeds with
  | false => exact ⟨owner, h.setSession (.closed owner system.deleted index)⟩
  | true =>
      refine ⟨fun key => (owner key).map (Owner.commit index), h.made, h.gone,
        fun key hheld => ?_, ?_, fun id upload hrow => ?_⟩
      · refine h.owned key fun hnone => hheld ?_
        simp [hnone]
      · refine sessions_set (fun place before hbefore hplace => ?_) (.closed _ _ _)
        obtain ⟨hstored, hdeleting, hinserted⟩ := h.sessions place before hbefore
        refine ⟨fun upload hphase => ?_, fun id upload hphase => ?_, fun id upload hheld => ?_⟩
        · obtain ⟨key, hkey, hholds, hthere⟩ := hstored upload hphase
          exact ⟨key, hkey, by simp [hholds, Owner.commit], hthere⟩
        · obtain ⟨key, hkey, hholds | hholds⟩ := hdeleting id upload hphase
          · exact ⟨key, hkey, .inl (by simp [hholds, Owner.commit, hplace])⟩
          · exact ⟨key, hkey, .inr (by simp [hholds, Owner.commit])⟩
        · obtain ⟨key, hkey, hholds, hthere⟩ := hinserted id upload hheld
          exact ⟨key, hkey, by simp [hholds, Owner.commit, hplace], hthere⟩
      · simp only [Uploads.commit, if_true, System.visible] at hrow
        split at hrow
        · cases hrow
        · rcases Option.or_eq_some_iff.mp hrow with hinserted | ⟨-, hbefore⟩
          · obtain ⟨key, hkey, hholds, -⟩ := howned.inserted id upload hinserted
            exact ⟨key, hkey, by simp [hholds, Owner.commit]⟩
          · obtain ⟨key, hkey, hholds⟩ := h.rows id upload hbefore
            exact ⟨key, hkey, by simp [hholds, Owner.commit]⟩

theorem Owned.execute (h : Owned system owner) (hsession : system.sessions[index]? = some session)
    {operation : Operation}
    (hexecute : execute guessType bucket system index session operation = some next) :
    ∃ owner', Owned next owner' := by
  cases operation with
  | put source userId chatId uuid outcome =>
      simp only [Uploads.execute] at hexecute
      split at hexecute
      · rename_i hfree
        cases hexecute
        exact h.put hsession hfree.2
      · cases hexecute
  | flush outcome =>
      simp only [Uploads.execute] at hexecute
      split at hexecute
      · rename_i upload hphase
        exact h.flush hsession hphase hexecute
      · cases hexecute
  | find id userId =>
      simp only [Uploads.execute] at hexecute
      split at hexecute
      · cases hexecute
        exact ⟨owner, h.find hsession id userId⟩
      · cases hexecute
  | deleteObject outcome =>
      simp only [Uploads.execute] at hexecute
      split at hexecute
      · rename_i id upload hphase
        cases hexecute
        exact ⟨owner, h.deleteObject hsession hphase outcome⟩
      · cases hexecute
  | commit succeeds =>
      simp only [Uploads.execute] at hexecute
      split at hexecute
      · cases hexecute
        exact h.commit hsession succeeds
      · cases hexecute
  | close =>
      cases hexecute
      exact ⟨owner, h.setSession (.closed owner system.deleted index)⟩

theorem Owned.step (h : ∃ owner, Owned system owner) {action : Action}
    (hstep : step guessType bucket system action = some next) : ∃ owner, Owned next owner := by
  obtain ⟨owner, h⟩ := h
  cases action with
  | begin =>
      cases hstep
      refine ⟨owner, h.made, h.gone, h.owned, fun index session hsession => ?_, h.rows⟩
      by_cases hold : index < system.sessions.length
      · exact h.sessions index session ((List.getElem?_append_left hold).symm.trans hsession)
      · have hnew : session ∈ [Session.opened] := List.mem_of_getElem?
          ((List.getElem?_append_right (not_lt.mp hold)).symm.trans hsession)
        obtain rfl := List.mem_singleton.mp hnew
        exact ⟨nofun, nofun, nofun⟩
  | execute index operation =>
      obtain ⟨session, hsession, hexecute⟩ := Option.bind_eq_some_iff.mp hstep
      exact h.execute hsession hexecute

theorem Owned.start : Owned System.start fun _ => none :=
  ⟨nofun, nofun, fun _ hheld => absurd rfl hheld, nofun, nofun⟩

/-! ### Which deletes leave a row without its object -/

/-- No object goes whose row is committed. -/
def sparesRows (system : System) : Action → Bool
  | .execute index (.deleteObject outcome) =>
      !outcome.gone || (system.sessions[index]?).all fun session => match session.phase with
        | .deleting id upload => (system.rows id).all fun row => row.key ≠ upload.key
        | _ => true
  | _ => true

/-- A row that is committed has its object if it had it before, or in the session. -/
theorem Intact.commit (h : Intact system) (howned : Owned system owner)
    (hsession : system.sessions[index]? = some session) (succeeds : Bool) :
    Intact (commit system index session succeeds) := by
  obtain ⟨owner', hnext⟩ := howned.commit hsession succeeds
  refine ⟨fun id upload hrow => ?_, fun id id' upload upload' => hnext.distinct⟩
  cases succeeds with
  | false => exact h.object id upload hrow
  | true =>
      simp only [Uploads.commit, if_true, System.visible] at hrow
      split at hrow
      · cases hrow
      · rename_i hkept
        rcases Option.or_eq_some_iff.mp hrow with hinserted | ⟨-, hbefore⟩
        · obtain ⟨key, hkey, hholds, hthere⟩ :=
            (howned.sessions index session hsession).inserted id upload hinserted
          refine ⟨key, hkey, howned.owned key fun hnone => ?_, hthere hkept⟩
          cases hholds.symm.trans hnone
        · exact h.object id upload hbefore

theorem deleteObject_intact_iff (h : Intact system) (howned : Owned system owner)
    (hsession : system.sessions[index]? = some session) {id : Nat} {upload : Upload}
    (hphase : session.phase = .deleting id upload) (outcome : DeleteOutcome) :
    Intact (deleteObject system index session id upload outcome) ↔
      sparesRows system (.execute index (.deleteObject outcome)) = true := by
  obtain ⟨key, hkey, hholds⟩ := (howned.sessions index session hsession).deleting id upload hphase
  have hnext := howned.deleteObject hsession hphase outcome
  have hrows : (deleteObject system index session id upload outcome).rows = system.rows := by
    simp only [Uploads.deleteObject, hkey]
    split <;> rfl
  have hstored : (deleteObject system index session id upload outcome).stored = system.stored := by
    simp only [Uploads.deleteObject, hkey]
    split <;> rfl
  have hdeleted : (deleteObject system index session id upload outcome).deleted =
      if outcome.gone then system.deleted ++ [key] else system.deleted := by
    simp only [Uploads.deleteObject, hkey]
  simp only [sparesRows, hsession, Option.all_some, hphase, hkey]
  cases hgone : outcome.gone with
  | false =>
      refine iff_of_true ⟨fun other row hrow => ?_, fun _ _ _ _ => hnext.distinct⟩ rfl
      rw [hstored, hdeleted, hgone]
      exact h.object other row (hrows ▸ hrow)
  | true =>
      simp only [Bool.not_true, Bool.false_or]
      constructor
      · intro hintact
        cases hrow : system.rows id with
        | none => rfl
        | some row =>
            simp only [Option.all_some, decide_eq_true_eq]
            intro hsame
            obtain ⟨other, hother, -, hthere⟩ := hintact.object id row (hrows ▸ hrow)
            obtain rfl := Option.some.inj (hother.symm.trans hsame)
            rw [hdeleted, hgone] at hthere
            exact hthere (List.mem_append_right _ (List.mem_singleton_self _))
      · intro hspared
        refine ⟨fun other row hrow => ?_, fun _ _ _ _ => hnext.distinct⟩
        rw [hrows] at hrow
        rw [hstored, hdeleted, hgone]
        obtain ⟨otherKey, hotherKey, hotherStored, hthere⟩ := h.object other row hrow
        refine ⟨otherKey, hotherKey, hotherStored, ?_⟩
        have hne : otherKey ≠ key := by
          rintro rfl
          obtain ⟨rowKey, hrowKey, hrowHolds⟩ := howned.rows other row hrow
          obtain rfl := Option.some.inj (hrowKey.symm.trans hotherKey)
          rcases hholds with hpending | hrowOwner
          · cases hpending.symm.trans hrowHolds
          · cases hrowOwner.symm.trans hrowHolds
            rw [hrow] at hspared
            simp [hotherKey] at hspared
        simp [hthere, hne]

/-- A step that changes neither the rows nor what is deleted. -/
theorem Intact.stay (h : Intact system) (hrows : next.rows = system.rows)
    (hstored : ∀ key ∈ system.stored, key ∈ next.stored)
    (hdeleted : next.deleted = system.deleted) : Intact next := by
  refine ⟨fun id upload hrow => ?_, ?_⟩
  · obtain ⟨key, hkey, hmem, hthere⟩ := h.object id upload (hrows ▸ hrow)
    exact ⟨key, hkey, hstored key hmem, hdeleted ▸ hthere⟩
  · rw [hrows]
    exact h.distinct

theorem Intact.execute_iff (h : Intact system) (howned : Owned system owner)
    (hsession : system.sessions[index]? = some session) {operation : Operation}
    (hexecute : execute guessType bucket system index session operation = some next) :
    Intact next ↔ sparesRows system (.execute index operation) = true := by
  cases operation with
  | put source userId chatId uuid outcome =>
      simp only [Uploads.execute] at hexecute
      split at hexecute
      · cases hexecute
        refine iff_of_true (h.stay rfl (fun key hkey => ?_) rfl) rfl
        simp only [Uploads.put]
        split
        · exact List.mem_append_left _ hkey
        · exact hkey
      · cases hexecute
  | flush outcome =>
      refine iff_of_true ?_ rfl
      simp only [Uploads.execute] at hexecute
      split at hexecute
      · cases outcome with
        | flushed =>
            simp only [Uploads.flush] at hexecute
            split at hexecute
            · cases hexecute
            · cases hexecute
              exact h.stay rfl (fun _ hkey => hkey) rfl
        | caught =>
            cases hexecute
            exact h.stay rfl (fun _ hkey => hkey) rfl
        | raised =>
            cases hexecute
            exact h.stay rfl (fun _ hkey => hkey) rfl
      · cases hexecute
  | find id userId =>
      simp only [Uploads.execute] at hexecute
      split at hexecute
      · cases hexecute
        refine iff_of_true ?_ rfl
        unfold find
        split <;> exact h.stay rfl (fun _ hkey => hkey) rfl
      · cases hexecute
  | deleteObject outcome =>
      simp only [Uploads.execute] at hexecute
      split at hexecute
      · rename_i id upload hphase
        cases hexecute
        exact deleteObject_intact_iff h howned hsession hphase outcome
      · cases hexecute
  | commit succeeds =>
      simp only [Uploads.execute] at hexecute
      split at hexecute
      · cases hexecute
        exact iff_of_true (h.commit howned hsession succeeds) rfl
      · cases hexecute
  | close =>
      cases hexecute
      exact iff_of_true (h.stay rfl (fun _ hkey => hkey) rfl) rfl

theorem Intact.start : Intact System.start := by
  constructor
  · intro _ _ hrow
    cases hrow
  · intro _ _ _ _ hrow
    cases hrow

/-- **When every row has its object.** All along a run, if and only if no delete takes an object away
whose row is committed. -/
theorem row_has_object (guessType : List Char → Option (List Char)) (bucket : Bucket)
    {actions : List Action} (hrun : run (step guessType bucket) System.start actions = some system) :
    (∀ done middle, done <+: actions →
        run (step guessType bucket) System.start done = some middle → Intact middle) ↔
      RunAllowed (step guessType bucket) (fun system action => sparesRows system action = true)
        System.start actions := by
  refine runAllowed_iff Intact.start ?_ hrun
  intro done before action after hdone hintact hstep
  obtain ⟨owner, howned⟩ : ∃ owner, Owned before owner :=
    (reach_of_run_all hdone).invariant (fun system => ∃ owner, Owned system owner)
      ⟨_, Owned.start⟩ fun _ _ _ h _ hnext => Owned.step h hnext
  cases action with
  | begin =>
      cases hstep
      exact iff_of_true (hintact.stay rfl (fun _ hkey => hkey) rfl) rfl
  | execute index operation =>
      obtain ⟨session, hsession, hexecute⟩ := Option.bind_eq_some_iff.mp hstep
      exact hintact.execute_iff howned hsession hexecute

end

def someBucket : Bucket := ⟨"codex".toList, by decide⟩

def firstUuid : Uuid := ⟨List.replicate 32 'a', by decide, by decide⟩

/-- Eleven bytes of text. -/
def someFile : Source := ⟨"tmp".toList, 11, some "notes.txt".toList, some "text/plain".toList⟩

/-- A file is uploaded, and its row committed. -/
def uploaded : List Action :=
  [.begin, .execute 0 (.put someFile 1 none firstUuid .stored), .execute 0 (.flush .flushed),
    .execute 0 (.commit true), .begin]

/-- A `delete` whose object stays, by a failure it catches, takes the row away only. -/
theorem row_has_object_orphan :
    ∃ system, run (step (fun _ => none) someBucket) System.start
        (uploaded ++ [.execute 1 (.find 1 1), .execute 1 (.deleteObject ⟨false, false⟩),
          .execute 1 (.commit true)]) = some system ∧
      ∀ done middle, done <+: uploaded ++ [.execute 1 (.find 1 1),
          .execute 1 (.deleteObject ⟨false, false⟩), .execute 1 (.commit true)] →
        run (step (fun _ => none) someBucket) System.start done = some middle → Intact middle := by
  have hallowed : RunAllowed (step (fun _ => none) someBucket)
      (fun system action => sparesRows system action = true) System.start
      (uploaded ++ [.execute 1 (.find 1 1), .execute 1 (.deleteObject ⟨false, false⟩),
        .execute 1 (.commit true)]) := by decide +kernel
  have hruns : (run (step (fun _ => none) someBucket) System.start
      (uploaded ++ [.execute 1 (.find 1 1), .execute 1 (.deleteObject ⟨false, false⟩),
        .execute 1 (.commit true)])).isSome = true := by decide +kernel
  obtain ⟨system, hrun⟩ := Option.isSome_iff_exists.mp hruns
  exact ⟨system, hrun, (row_has_object (fun _ => none) someBucket hrun).mpr hallowed⟩

/-- The object goes, and the caller's commit fails: the row is left without it. -/
theorem row_without_object :
    (run (step (fun _ => none) someBucket) System.start
      (uploaded ++ [.execute 1 (.find 1 1), .execute 1 (.deleteObject ⟨true, false⟩),
        .execute 1 (.commit false)])).any (fun system =>
      (system.rows 1).any fun upload => upload.key.any fun key => system.deleted.contains key) =
        true := by
  decide +kernel

end CodexServer.Uploads
