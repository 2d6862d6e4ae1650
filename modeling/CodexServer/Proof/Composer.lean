import Mathlib
import CodexServer.Composer

/-!
# What is attached is sent once

An upload of the composer is still to be sent, or in one message, or the user has removed it. The one
way around that is a recording: it is sent without regard to the attachments that are uploading, and
they go with the list they are in.
-/

open Transition

namespace CodexServer.Composer

/-! ### The items of the list -/

section

variable {key uploadId id : Nat} {status : Status} {pending : List Pending} {item : Pending}

theorem setStatus_of_absent (h : ∀ item ∈ pending, item.key ≠ key) :
    State.setStatus key status pending = pending := by
  rw [State.setStatus, List.map_congr_left (g := fun item => item), List.map_id']
  intro item hitem
  exact if_neg (h item hitem)

theorem keys_setStatus :
    (State.setStatus key status pending).map Pending.key = pending.map Pending.key := by
  rw [State.setStatus, List.map_map]
  apply List.map_congr_left
  intro item _
  simp only [Function.comp_apply]
  split <;> rfl

theorem readyIds_cons : readyIds (item :: pending) = item.readyId.toList ++ readyIds pending := by
  cases hready : item.readyId with
  | none => rw [readyIds, List.filterMap_cons_none hready, Option.toList_none, List.nil_append, readyIds]
  | some uploadId =>
      rw [readyIds, List.filterMap_cons_some hready, Option.toList_some, List.singleton_append, readyIds]

/-- An item that was uploading takes a place among the ids when it gets one. -/
theorem count_setStatus (id : Nat) (status : Status)
    (hnodup : (pending.map Pending.key).Nodup)
    (hitem : ∃ item ∈ pending, item.key = key)
    (hwaits : ∀ item ∈ pending, item.key = key → item.status = .uploading) :
    (readyIds (State.setStatus key status pending)).count id =
      (readyIds pending).count id + (Pending.readyId ⟨key, status⟩).toList.count id := by
  induction pending with
  | nil =>
      obtain ⟨item, hmem, -⟩ := hitem
      cases hmem
  | cons head rest ih =>
      rw [List.map_cons, List.nodup_cons] at hnodup
      by_cases hhead : head.key = key
      · have habsent : ∀ item ∈ rest, item.key ≠ key := fun item hmem hsame =>
          hnodup.1 (List.mem_map.mpr ⟨item, hmem, hsame.trans hhead.symm⟩)
        have hrest : State.setStatus key status (head :: rest) = ⟨key, status⟩ :: rest := by
          rw [State.setStatus, List.map_cons, if_pos hhead, ← hhead]
          exact congrArg _ (hhead ▸ setStatus_of_absent habsent)
        have hnone : head.readyId = none := by
          simp [Pending.readyId, hwaits head List.mem_cons_self hhead]
        rw [hrest, readyIds_cons, readyIds_cons, hnone, List.count_append, List.count_append,
          Option.toList_none, List.count_nil]
        omega
      · have hrest : State.setStatus key status (head :: rest) =
            head :: State.setStatus key status rest := by
          rw [State.setStatus, List.map_cons, if_neg hhead]
          rfl
        obtain ⟨item, hmem, hsame⟩ := hitem
        have hmem : item ∈ rest := (List.mem_cons.mp hmem).resolve_left fun heq =>
          hhead (heq ▸ hsame)
        have hlater := ih hnodup.2 ⟨item, hmem, hsame⟩ fun item hmem =>
          hwaits item (List.mem_cons_of_mem _ hmem)
        rw [hrest, readyIds_cons, readyIds_cons, List.count_append, List.count_append, hlater]
        omega

theorem count_partition (key id : Nat) (pending : List Pending) :
    (readyIds pending).count id =
      (readyIds (pending.filter fun item => item.key ≠ key)).count id +
        (readyIds (pending.filter fun item => item.key = key)).count id := by
  have hperm := (List.filter_append_perm (fun item : Pending => decide (item.key = key))
    pending).filterMap Pending.readyId
  have hcount := hperm.count_eq id
  rw [List.filterMap_append, List.count_append] at hcount
  simp only [readyIds, ne_eq, decide_not]
  omega

/-- A recording that moves on takes its id with it. -/
theorem count_setStage (id : Nat) {recordings : List Stage} {stage : Stage} (after : Stage)
    (hstage : recordings[key]? = some stage) :
    ((recordings.set key after).filterMap Stage.uploadId).count id +
        stage.uploadId.toList.count id =
      (recordings.filterMap Stage.uploadId).count id + after.uploadId.toList.count id := by
  have hcons : ∀ (head : Stage) (rest : List Stage), ((head :: rest).filterMap Stage.uploadId).count id =
      head.uploadId.toList.count id + (rest.filterMap Stage.uploadId).count id := by
    intro head rest
    cases hhead : head.uploadId with
    | none => simp [hhead]
    | some uploadId => simp [hhead, List.count_cons, Nat.add_comm]
  induction recordings generalizing key with
  | nil => cases hstage
  | cons head rest ih =>
      cases key with
      | zero =>
          obtain rfl : head = stage := Option.some.inj hstage
          rw [List.set_cons_zero, hcons, hcons]
          omega
      | succ key =>
          have hlater := ih (show rest[key]? = some stage from hstage)
          rw [List.set_cons_succ, hcons, hcons]
          omega

theorem mem_setStatus : item ∈ State.setStatus key status pending →
    item ∈ pending ∧ item.key ≠ key ∨ item = ⟨key, status⟩ := by
  intro hitem
  obtain ⟨before, hbefore, rfl⟩ := List.mem_map.mp hitem
  split
  · rename_i hsame
    exact .inr (hsame ▸ rfl)
  · rename_i hne
    exact .inl ⟨hbefore, hne⟩

theorem mem_uploadingKeys :
    key ∈ uploadingKeys pending ↔ ∃ item ∈ pending, item.isUploading = true ∧ item.key = key := by
  simp [uploadingKeys, and_assoc]

end

/-! ### The composer -/

/-- What is in the composer and what has come of the uploads. -/
structure Sound (composer : State) : Prop where
  counts : ∀ id, composer.stored.count id = composer.held.count id + composer.sentIds.count id +
    composer.removed.count id + (composer.late.map Prod.snd).count id
  nodup : composer.stored.Nodup
  keys : (composer.pending.map Pending.key).Nodup
  below : ∀ item ∈ composer.pending, item.key < composer.nextKey
  uploadsBelow : ∀ key ∈ composer.uploads, key < composer.nextKey
  uploads : composer.uploads.Nodup
  waiting : ∀ item ∈ composer.pending, item.isUploading = true ↔ item.key ∈ composer.uploads
  gone : ∀ key ∈ composer.uploads, (∃ item ∈ composer.pending, item.key = key) ∨
    key ∈ composer.discarded ∨ key ∈ composer.cleared
  late : ∀ entry ∈ composer.late, entry.1 ∈ composer.discarded ∨ entry.1 ∈ composer.cleared
  ready : ∀ item ∈ composer.pending, item.status ≠ .ready 0
  sent : ∀ message ∈ composer.sent, message.text ≠ [] ∨ message.uploadIds ≠ []

section

variable {composer next : State} {key uploadId id : Nat}

theorem isFresh_iff : composer.isFresh uploadId = true ↔
    uploadId ≠ 0 ∧ uploadId ∉ composer.stored := by
  simp [State.isFresh]

theorem sound_start : Sound {} := by
  constructor <;> simp [State.held, State.sentIds, readyIds]

theorem Sound.attach (h : Sound composer) : Sound { composer with
    pending := composer.pending ++ [⟨composer.nextKey, .uploading⟩]
    uploads := composer.uploads ++ [composer.nextKey]
    nextKey := composer.nextKey + 1 } := by
  have hnew : ∀ item ∈ composer.pending ++ [⟨composer.nextKey, .uploading⟩],
      item ∈ composer.pending ∨ item = ⟨composer.nextKey, .uploading⟩ := fun item hitem =>
    (List.mem_append.mp hitem).imp (fun hold => hold) List.mem_singleton.mp
  refine ⟨fun id => ?_, h.nodup, ?_, ?_, ?_, ?_, ?_, ?_, h.late, ?_, h.sent⟩
  · have hready : readyIds (composer.pending ++ [⟨composer.nextKey, .uploading⟩]) =
        readyIds composer.pending := by
      simp [readyIds, Pending.readyId]
    simpa only [State.held, State.sentIds, hready] using h.counts id
  · rw [List.map_append, List.nodup_append]
    refine ⟨h.keys, by simp, fun key hkey other hother hsame => ?_⟩
    obtain ⟨item, hitem, rfl⟩ := List.mem_map.mp hkey
    have hlt := h.below item hitem
    simp only [List.map_cons, List.map_nil, List.mem_singleton] at hother
    omega
  · intro item hitem
    rcases hnew item hitem with hold | rfl
    · exact Nat.lt_succ_of_lt (h.below item hold)
    · exact Nat.lt_succ_self _
  · intro key hkey
    rcases List.mem_append.mp hkey with hold | hlast
    · exact Nat.lt_succ_of_lt (h.uploadsBelow key hold)
    · rw [List.mem_singleton.mp hlast]
      exact Nat.lt_succ_self _
  · rw [List.nodup_append]
    refine ⟨h.uploads, by simp, fun key hkey other hother hsame => ?_⟩
    have hlt := h.uploadsBelow key hkey
    rw [List.mem_singleton] at hother
    omega
  · intro item hitem
    rcases hnew item hitem with hold | rfl
    · have hne : item.key ≠ composer.nextKey := (h.below item hold).ne
      simp [h.waiting item hold, hne]
    · simp [Pending.isUploading]
  · intro key hkey
    rcases List.mem_append.mp hkey with hold | hlast
    · refine (h.gone key hold).imp (fun ⟨item, hitem, hsame⟩ => ?_) fun hgone => hgone
      exact ⟨item, List.mem_append_left _ hitem, hsame⟩
    · exact .inl ⟨_, List.mem_append_right _ List.mem_cons_self, (List.mem_singleton.mp hlast).symm⟩
  · intro item hitem
    rcases hnew item hitem with hold | rfl
    · exact h.ready item hold
    · exact fun hready => by cases hready

/-- An upload ends, and its item, if it is still there, shows how. -/
theorem Sound.ends (h : Sound composer) (hkey : key ∈ composer.uploads) (status : Status)
    (hstatus : status ≠ .uploading) (hready : status ≠ .ready 0) :
    let pending := State.setStatus key status composer.pending
    (pending.map Pending.key).Nodup ∧ (∀ item ∈ pending, item.key < composer.nextKey) ∧
      (∀ item ∈ pending, item.isUploading = true ↔ item.key ∈ composer.uploads.erase key) ∧
      (∀ other ∈ composer.uploads.erase key, (∃ item ∈ pending, item.key = other) ∨
        other ∈ composer.discarded ∨ other ∈ composer.cleared) ∧
      ∀ item ∈ pending, item.status ≠ .ready 0 := by
  have hkeys : (State.setStatus key status composer.pending).map Pending.key =
      composer.pending.map Pending.key := keys_setStatus
  refine ⟨hkeys ▸ h.keys, fun item hitem => ?_, fun item hitem => ?_, fun other hother => ?_,
    fun item hitem => ?_⟩
  · rcases mem_setStatus hitem with ⟨hold, -⟩ | rfl
    · exact h.below item hold
    · exact h.uploadsBelow key hkey
  · rcases mem_setStatus hitem with ⟨hold, hne⟩ | rfl
    · rw [h.waiting item hold, List.mem_erase_of_ne hne]
    · simp [Pending.isUploading, hstatus, h.uploads.mem_erase_iff]
  · refine (h.gone other (List.mem_of_mem_erase hother)).imp (fun ⟨item, hitem, hsame⟩ => ?_)
      fun hgone => hgone
    have hmem : other ∈ (State.setStatus key status composer.pending).map Pending.key := by
      rw [hkeys, ← hsame]
      exact List.mem_map_of_mem hitem
    exact List.mem_map.mp hmem
  · rcases mem_setStatus hitem with ⟨hold, -⟩ | rfl
    · exact h.ready item hold
    · exact hready

/-- The item of an upload that has not ended is uploading. -/
theorem Sound.uploading (h : Sound composer) (hkey : key ∈ composer.uploads) {item : Pending}
    (hitem : item ∈ composer.pending) (hsame : item.key = key) : item.status = .uploading := by
  have huploading := (h.waiting item hitem).mpr (hsame ▸ hkey)
  simpa [Pending.isUploading] using huploading

theorem Sound.answer (h : Sound composer) (hkey : key ∈ composer.uploads)
    (hfresh : composer.isFresh uploadId = true) : Sound (composer.answer key uploadId) := by
  obtain ⟨hpositive, hnew⟩ := isFresh_iff.mp hfresh
  obtain ⟨hkeys, hbelow, hwaiting, hgone, hready⟩ :=
    h.ends hkey (.ready uploadId) (by simp) (by simpa using hpositive)
  refine ⟨fun id => ?_, ?_, hkeys, hbelow, ?_, h.uploads.erase _, hwaiting, hgone, ?_, hready,
    h.sent⟩
  · have hcount := h.counts id
    simp only [State.answer, State.held, State.sentIds, List.count_append] at hcount ⊢
    by_cases hitem : ∃ item ∈ composer.pending, item.key = key
    · have hset := count_setStatus id (.ready uploadId) h.keys hitem
        fun item hmem hsame => h.uploading hkey hmem hsame
      have hlate : (composer.pending.any fun item => decide (item.key = key)) = true := by
        simpa using hitem
      simp only [hset, hlate, if_true, Pending.readyId, if_neg hpositive, Option.toList_some]
      omega
    · have habsent : ∀ item ∈ composer.pending, item.key ≠ key := fun item hmem hsame =>
        hitem ⟨item, hmem, hsame⟩
      have hlate : (composer.pending.any fun item => decide (item.key = key)) = false := by
        simpa using habsent
      simp only [setStatus_of_absent habsent, hlate, Bool.false_eq_true, if_false, List.map_append,
        List.map_cons, List.map_nil, List.count_append]
      omega
  · rw [State.answer, List.nodup_append]
    refine ⟨h.nodup, by simp, fun other hother new hnew' hsame => ?_⟩
    exact hnew (List.mem_singleton.mp hnew' ▸ hsame ▸ hother)
  · exact fun other hother => h.uploadsBelow other (List.mem_of_mem_erase hother)
  · intro entry hentry
    simp only [State.answer] at hentry ⊢
    split at hentry
    · exact h.late entry hentry
    · rename_i habsent
      rcases List.mem_append.mp hentry with hold | hlast
      · exact h.late entry hold
      · rw [List.mem_singleton.mp hlast]
        refine (h.gone key hkey).resolve_left fun ⟨item, hitem, hsame⟩ => habsent ?_
        simpa using ⟨item, hitem, hsame⟩

theorem Sound.uploadFails (h : Sound composer) (hkey : key ∈ composer.uploads) :
    Sound { composer with
      uploads := composer.uploads.erase key
      pending := State.setStatus key .failed composer.pending } := by
  obtain ⟨hkeys, hbelow, hwaiting, hgone, hready⟩ := h.ends hkey .failed (by simp) (by simp)
  refine ⟨fun id => ?_, h.nodup, hkeys, hbelow, ?_, h.uploads.erase _, hwaiting, hgone, h.late,
    hready, h.sent⟩
  · have hcount := h.counts id
    simp only [State.held, State.sentIds, List.count_append] at hcount ⊢
    by_cases hitem : ∃ item ∈ composer.pending, item.key = key
    · have hset := count_setStatus id .failed h.keys hitem fun item hmem hsame =>
        h.uploading hkey hmem hsame
      simp only [hset, Pending.readyId, Option.toList_none, List.count_nil]
      omega
    · have habsent : ∀ item ∈ composer.pending, item.key ≠ key := fun item hmem hsame =>
        hitem ⟨item, hmem, hsame⟩
      simp only [setStatus_of_absent habsent]
      omega
  · exact fun other hother => h.uploadsBelow other (List.mem_of_mem_erase hother)

/-- Items leave the list, those that are uploading by name. -/
theorem Sound.leave (h : Sound composer) (kept : List Pending) (discarded cleared : List Nat)
    (hkept : kept.Sublist composer.pending)
    (hleft : ∀ item ∈ composer.pending, item.isUploading = true → item ∈ kept ∨
      item.key ∈ discarded ∨ item.key ∈ cleared)
    (hdiscarded : composer.discarded ⊆ discarded) (hcleared : composer.cleared ⊆ cleared) :
    (kept.map Pending.key).Nodup ∧ (∀ item ∈ kept, item.key < composer.nextKey) ∧
      (∀ item ∈ kept, item.isUploading = true ↔ item.key ∈ composer.uploads) ∧
      (∀ key ∈ composer.uploads, (∃ item ∈ kept, item.key = key) ∨
        key ∈ discarded ∨ key ∈ cleared) ∧
      (∀ entry ∈ composer.late, entry.1 ∈ discarded ∨ entry.1 ∈ cleared) ∧
      ∀ item ∈ kept, item.status ≠ .ready 0 := by
  refine ⟨h.keys.sublist (hkept.map _), fun item hitem => h.below item (hkept.subset hitem),
    fun item hitem => h.waiting item (hkept.subset hitem), fun key hkey => ?_,
    fun entry hentry => (h.late entry hentry).imp (fun hmem => hdiscarded hmem) fun hmem =>
      hcleared hmem, fun item hitem => h.ready item (hkept.subset hitem)⟩
  rcases h.gone key hkey with ⟨item, hitem, rfl⟩ | hgone | hgone
  · rcases hleft item hitem ((h.waiting item hitem).mpr hkey) with hmem | hgone
    · exact .inl ⟨item, hmem, rfl⟩
    · exact .inr hgone
  · exact .inr (.inl (hdiscarded hgone))
  · exact .inr (.inr (hcleared hgone))

theorem Sound.remove (h : Sound composer) (key : Nat) : Sound (composer.remove key) := by
  have hleft : ∀ item ∈ composer.pending, item.isUploading = true →
      (item ∈ composer.pending.filter fun item => item.key ≠ key) ∨
        item.key ∈ (composer.remove key).discarded ∨ item.key ∈ composer.cleared := by
    intro item hitem huploading
    by_cases hsame : item.key = key
    · refine .inr (.inl (List.mem_append_right _ (mem_uploadingKeys.mpr ⟨item, ?_, huploading, rfl⟩)))
      simpa [hsame] using hitem
    · exact .inl (by simpa [hsame] using hitem)
  obtain ⟨hkeys, hbelow, hwaiting, hgone, hlate, hready⟩ := h.leave _ _ _ List.filter_sublist hleft
    (List.subset_append_left _ _) (List.Subset.refl _)
  refine ⟨fun id => ?_, h.nodup, hkeys, hbelow, h.uploadsBelow, h.uploads, hwaiting, hgone, hlate,
    hready, h.sent⟩
  have hcount := h.counts id
  have hsplit := count_partition key id composer.pending
  simp only [State.remove, State.held, State.sentIds, List.count_append] at hcount ⊢
  omega

/-- The message leaves nothing of it behind. -/
theorem Sound.handOver (h : Sound composer) {text : Composer.Text} (audioIds : List Nat)
    (hmessage : text ≠ [] ∨ readyIds composer.pending ++ audioIds ≠ []) :
    let after := composer.handOver text audioIds
    (after.pending.map Pending.key).Nodup ∧
      (∀ key ∈ composer.uploads, key ∈ composer.discarded ∨ key ∈ after.cleared) ∧
      (∀ entry ∈ composer.late, entry.1 ∈ composer.discarded ∨ entry.1 ∈ after.cleared) ∧
      (∀ message ∈ after.sent, message.text ≠ [] ∨ message.uploadIds ≠ []) ∧
      ∀ id, after.sentIds.count id = composer.sentIds.count id +
        (readyIds composer.pending).count id + audioIds.count id := by
  have hleft : ∀ item ∈ composer.pending, item.isUploading = true → item ∈ ([] : List Pending) ∨
      item.key ∈ composer.discarded ∨ item.key ∈ (composer.handOver text audioIds).cleared :=
    fun item hitem huploading => .inr (.inr (List.mem_append_right _
      (mem_uploadingKeys.mpr ⟨item, hitem, huploading, rfl⟩)))
  obtain ⟨hkeys, -, -, hgone, hlate, -⟩ := h.leave [] _ _ (List.nil_sublist _) hleft
    (List.Subset.refl _) (List.subset_append_left _ _)
  refine ⟨hkeys, fun key hkey => (hgone key hkey).resolve_left fun ⟨item, hitem, _⟩ => ?_, hlate,
    fun message hmem => ?_, fun id => ?_⟩
  · cases hitem
  · rcases List.mem_append.mp hmem with hold | hlast
    · exact h.sent message hold
    · rw [List.mem_singleton.mp hlast]
      exact hmessage
  · simp only [State.handOver, State.sentIds, List.flatMap_append, List.flatMap_cons,
      List.flatMap_nil, List.append_nil, Message.uploadIds, List.count_append]
    omega

theorem Sound.send (h : Sound composer) (hcan : composer.canSend = true) :
    Sound (composer.handOver (trim composer.text) composer.audioUploadIds) := by
  simp only [State.canSend, Bool.and_eq_true, Bool.or_eq_true, decide_eq_true_eq] at hcan
  have hmessage : trim composer.text ≠ [] ∨
      readyIds composer.pending ++ composer.audioUploadIds ≠ [] := by
    rcases hcan.2 with (htext | hready) | haudio
    · exact .inl htext
    · obtain ⟨item, hitem, hready⟩ := List.any_eq_true.mp hready
      refine .inr (List.append_ne_nil_of_left_ne_nil (fun hnil => ?_) _)
      have hnone := List.filterMap_eq_nil_iff.mp hnil item hitem
      have hpositive := h.ready item hitem
      cases hstatus : item.status with
      | ready uploadId => simp_all [Pending.readyId]
      | _ => simp [Pending.isReady, hstatus] at hready
    · exact .inr (List.append_ne_nil_of_right_ne_nil _ haudio)
  obtain ⟨hkeys, hgone, hlate, hsent, hids⟩ := h.handOver _ hmessage
  refine ⟨fun id => ?_, h.nodup, hkeys, ?_, h.uploadsBelow, h.uploads, ?_,
    fun key hkey => .inr (hgone key hkey), hlate, ?_, hsent⟩
  · have hcount := h.counts id
    have hmore := hids id
    simp only [State.held, List.count_append] at hcount ⊢
    rw [hmore]
    simp only [State.handOver, readyIds, List.filterMap_nil, List.count_nil] at hcount ⊢
    omega
  all_goals
    intro item hitem
    cases hitem

/-- A recording moves on to a stage without an id. -/
theorem Sound.setStage (h : Sound composer) {stage after : Stage}
    (hstage : composer.recordings[id]? = some stage) (hbefore : stage.uploadId = none)
    (hafter : after.uploadId = none) (transcribing : Bool) :
    Sound { composer.setStage id after with transcribing := transcribing } := by
  refine ⟨fun other => ?_, h.nodup, h.keys, h.below, h.uploadsBelow, h.uploads, h.waiting, h.gone,
    h.late, h.ready, h.sent⟩
  have hcount := h.counts other
  have hset := count_setStage other after hstage
  simp only [hbefore, hafter, Option.toList_none, List.count_nil] at hset
  simp only [State.held, State.sentIds, State.setStage, List.count_append] at hcount ⊢
  omega

theorem Sound.record (h : Sound composer) : Sound { composer with
    recordings := composer.recordings ++ [.uploading]
    transcribing := true } := by
  refine ⟨fun other => ?_, h.nodup, h.keys, h.below, h.uploadsBelow, h.uploads, h.waiting, h.gone,
    h.late, h.ready, h.sent⟩
  have hnone : (composer.recordings ++ [Stage.uploading]).filterMap Stage.uploadId =
      composer.recordings.filterMap Stage.uploadId := by
    simp [Stage.uploadId]
  simpa only [State.held, State.sentIds, hnone] using h.counts other

theorem Sound.recordUploaded (h : Sound composer)
    (hstage : composer.recordings[id]? = some .uploading)
    (hfresh : composer.isFresh uploadId = true) :
    Sound { composer.setStage id (.transcribing uploadId) with
      stored := composer.stored ++ [uploadId] } := by
  refine ⟨fun other => ?_, ?_, h.keys, h.below, h.uploadsBelow, h.uploads, h.waiting, h.gone,
    h.late, h.ready, h.sent⟩
  · have hcount := h.counts other
    have hset := count_setStage other (.transcribing uploadId) hstage
    simp only [Stage.uploadId, Option.toList_none, Option.toList_some, List.count_nil] at hset
    simp only [State.held, State.sentIds, State.setStage, List.count_append] at hcount ⊢
    omega
  · refine List.nodup_append.mpr ⟨h.nodup, by simp, fun other hother new hnew hsame => ?_⟩
    exact (isFresh_iff.mp hfresh).2 (List.mem_singleton.mp hnew ▸ hsame ▸ hother)

/-- A recording is kept for the next message, or it is sent with all there is. -/
theorem Sound.transcribe (h : Sound composer)
    (hstage : composer.recordings[id]? = some (.transcribing uploadId)) (transcript : Composer.Text) :
    Sound (composer.transcribe id uploadId transcript) := by
  have hcount := h.counts
  have hset : ∀ other (after : Stage), after.uploadId = none →
      ((composer.recordings.set id after).filterMap Stage.uploadId).count other +
        [uploadId].count other = (composer.recordings.filterMap Stage.uploadId).count other := by
    intro other after hafter
    have hset := count_setStage other after hstage
    rwa [hafter, Option.toList_none, List.count_nil, Nat.add_zero] at hset
  simp only [State.held, State.sentIds, List.count_append] at hcount
  unfold State.transcribe
  dsimp only
  split
  · refine ⟨fun other => ?_, h.nodup, h.keys, h.below, h.uploadsBelow, h.uploads, h.waiting, h.gone,
      h.late, h.ready, h.sent⟩
    have hbefore := hcount other
    have hmoved := hset other .settled rfl
    simp only [State.held, State.sentIds, State.settle, State.setStage, List.count_append]
    omega
  · rename_i hcarried
    obtain ⟨hkeys, hgone, hlate, hsent, hids⟩ :=
      h.handOver (composer.audioUploadIds ++ [uploadId]) (.inl hcarried)
    refine ⟨fun other => ?_, h.nodup, hkeys, ?_, h.uploadsBelow, h.uploads, ?_,
      fun key hkey => .inr (hgone key hkey), hlate, ?_, hsent⟩
    · have hbefore := hcount other
      have hmoved := hset other .sending rfl
      have hmore := hids other
      rw [List.count_append] at hmore
      simp only [State.held, State.setStage, List.count_append] at hmore ⊢
      simp only [State.handOver, State.sentIds, readyIds, List.filterMap_nil, List.count_nil]
        at hbefore hmore ⊢
      omega
    all_goals
      intro item hitem
      cases hitem

theorem Sound.step (h : Sound composer) {action : Action} (hstep : composer.step action = some next) :
    Sound next := by
  cases action with
  | type text =>
      cases hstep
      exact ⟨h.counts, h.nodup, h.keys, h.below, h.uploadsBelow, h.uploads, h.waiting, h.gone, h.late,
        h.ready, h.sent⟩
  | attach =>
      cases hstep
      exact h.attach
  | uploaded key uploadId =>
      simp only [State.step] at hstep
      split at hstep
      · rename_i hanswered
        rw [Bool.and_eq_true, List.contains_iff_mem] at hanswered
        cases hstep
        exact h.answer hanswered.1 hanswered.2
      · cases hstep
  | uploadFails key =>
      simp only [State.step] at hstep
      split at hstep
      · rename_i hkey
        cases hstep
        exact h.uploadFails (List.contains_iff_mem.mp hkey)
      · cases hstep
  | remove key =>
      cases hstep
      exact h.remove key
  | send =>
      simp only [State.step] at hstep
      split at hstep
      · rename_i hcan
        cases hstep
        exact h.send hcan
      · cases hstep
        exact h
  | record =>
      cases hstep
      exact h.record
  | recordUploaded id uploadId =>
      simp only [State.step] at hstep
      split at hstep
      · rename_i hstored
        cases hstep
        exact h.recordUploaded hstored.1 hstored.2
      · cases hstep
  | recordFails id =>
      simp only [State.step] at hstep
      split at hstep
      · rename_i hstage
        cases hstep
        exact h.setStage hstage rfl rfl false
      · cases hstep
  | transcribed id answer =>
      simp only [State.step] at hstep
      split at hstep
      · rename_i uploadId hstage
        cases hstep
        exact h.transcribe hstage _
      · cases hstep
  | handedOver id =>
      simp only [State.step] at hstep
      split at hstep
      · rename_i hstage
        cases hstep
        exact h.setStage hstage rfl rfl false
      · cases hstep

/-! ### What is lost -/

theorem uploadingKeys_eq_nil : uploadingKeys composer.pending = [] ↔
    composer.uploadingNow = false := by
  simp [uploadingKeys, State.uploadingNow]

/-- An item leaves with a recording just if the recording does not wait for it. -/
theorem cleared_step {action : Action} (hstep : composer.step action = some next) :
    next.cleared = [] ↔ composer.cleared = [] ∧ composer.waits action = true := by
  cases action with
  | send =>
      simp only [State.step] at hstep
      split at hstep
      · rename_i hcan
        cases hstep
        have hnone : uploadingKeys composer.pending = [] := by
          simp only [State.canSend, Bool.and_eq_true, Bool.not_eq_true'] at hcan
          exact uploadingKeys_eq_nil.mpr hcan.1.1
        simp [State.handOver, hnone, State.waits]
      · cases hstep
        simp [State.waits]
  | transcribed id answer =>
      simp only [State.step] at hstep
      split at hstep
      · rename_i uploadId hstage
        cases hstep
        simp only [State.waits, hstage, State.transcribe, Bool.or_eq_true, Bool.not_eq_true',
          decide_eq_true_eq]
        split
        · rename_i hcarried
          simp [State.settle, State.setStage, hcarried]
        · rename_i hcarried
          simp [State.handOver, State.setStage, hcarried, uploadingKeys_eq_nil]
      · cases hstep
  | type text | attach | remove key | record =>
      cases hstep
      simp [State.waits, State.remove]
  | uploaded | uploadFails | recordUploaded | recordFails | handedOver =>
      simp only [State.step] at hstep
      split at hstep
      · cases hstep
        simp [State.waits, State.answer, State.settle, State.setStage]
      · cases hstep

/-- **What is attached is sent once.** The ids that the server has answered with are all different,
and each of them is still to be sent, or in one message, or of an item that the user has removed, or
has come after its item was gone; the item was then removed by the user or cleared away by a recording.
Every message has a text or an upload. Nothing is cleared away just if every recording waits for the
attachments that are uploading. -/
theorem attachments_sent_once {actions : List Action}
    (hrun : run State.step {} actions = some composer) :
    composer.stored.Nodup ∧
    composer.stored.Perm (composer.held ++ composer.sentIds ++ composer.removed ++
      composer.late.map Prod.snd) ∧
    (∀ entry ∈ composer.late, entry.1 ∈ composer.discarded ∨ entry.1 ∈ composer.cleared) ∧
    (∀ message ∈ composer.sent, message.text ≠ [] ∨ message.uploadIds ≠ []) ∧
    (composer.cleared = [] ↔
      RunAllowed State.step (fun composer action => composer.waits action = true) {} actions) := by
  have hsound : Sound composer := (reach_of_run_all hrun).invariant Sound sound_start
    fun before action after h _ hstep => h.step hstep
  refine ⟨hsound.nodup, ?_, hsound.late, hsound.sent, ?_⟩
  · rw [List.perm_iff_count]
    intro id
    have hcount := hsound.counts id
    simp only [List.count_append]
    omega
  · induction actions using List.reverseRecOn generalizing composer with
    | nil =>
        cases hrun
        simp [RunAllowed]
    | append_singleton actions action ih =>
        have hlast := hrun
        rw [run_append, Option.bind_eq_some_iff] at hlast
        obtain ⟨before, hbefore, hstep⟩ := hlast
        have hnext : before.step action = some composer := by
          simpa [run] using hstep
        have hsoundBefore : Sound before := (reach_of_run_all hbefore).invariant Sound sound_start
          fun before action after h _ hstep => h.step hstep
        rw [runAllowed_append hbefore, ← ih hbefore hsoundBefore, cleared_step hnext]
        simp [RunAllowed]

/-- An image and a silent recording are sent with a text, a second recording with another image. -/
def waitedFor : List Action :=
  [.attach, .record, .uploaded 0 1, .recordUploaded 0 2, .transcribed 0 none, .type ['h', 'i'], .send,
    .attach, .record, .uploaded 1 3, .recordUploaded 1 4, .transcribed 1 (some ['y', 'o'])]

theorem attachments_sent_once_waited :
    ∃ composer, run State.step {} waitedFor = some composer ∧
      composer.sent = [⟨['h', 'i'], [1], [2]⟩, ⟨['y', 'o'], [3], [4]⟩] ∧
      composer.stored.Perm (composer.held ++ composer.sentIds ++ composer.removed ++
        composer.late.map Prod.snd) := by
  obtain ⟨composer, hrun⟩ : ∃ composer, run State.step {} waitedFor = some composer := ⟨_, rfl⟩
  refine ⟨composer, hrun, ?_, (attachments_sent_once hrun).2.1⟩
  cases hrun
  rfl

/-- A recording takes the image with it that is still uploading. -/
example : (run State.step {} [.attach, .record, .recordUploaded 0 1,
    .transcribed 0 (some ['h', 'i']), .uploaded 0 2]).map (fun composer =>
      (composer.sent, composer.late, composer.held)) =
    some ([⟨['h', 'i'], [], [1]⟩], [(0, 2)], []) := by
  decide

end

end CodexServer.Composer
