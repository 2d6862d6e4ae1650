import Mathlib
import CodexServer.Library.Splitting
import CodexServer.Vault
import CodexServer.Library.Fallible

/-!
# The vault files are exact

What `save` accepts has no separator of a file format in the fields that are written as they are,
and what it does not check is quoted or escaped. So each file is read back as the rows it was made
from.
-/

open Transition

namespace CodexServer.Vault

/-! ### What `save` accepts -/

section

variable {Key : Type} {platform : Platform Key} {system next : System Key}

/-- The fields that a file takes as they are. -/
structure WellFormed (row : Integration) : Prop where
  host : row.kind ≠ .telegram → ∀ c ∈ row.host, isHostChar c = true
  name : row.kind = .ssh → row.name ≠ [] ∧ ∀ c ∈ row.name, isNameChar c = true
  username : row.kind = .ssh → row.username ≠ [] ∧ ∀ c ∈ row.username, isHostChar c = true

def Sealed (platform : Platform Key) (row : Integration) : Prop :=
  ∃ key salt, row.secret = platform.fernet.encrypt key salt row.given

@[simp] theorem require_eq_ok {ok : Bool} {message : String} {answer : Unit} :
    require ok message = .ok answer ↔ ok = true := by
  cases ok <;> simp [require]

theorem checkedHost_spec {data : IntegrationInput} {host : Text}
    (h : checkedHost data = .ok host) (hkind : data.kind ≠ .telegram) :
    ∀ c ∈ host, isHostChar c = true := by
  simp only [checkedHost, hkind, if_false, Except.bind_eq_ok, validateHost, require_eq_ok,
    Bool.and_eq_true, List.all_eq_true] at h
  obtain ⟨-, ⟨-, hchars⟩, hhost⟩ := h
  cases hhost
  exact hchars

theorem checkedUsername_spec {data : IntegrationInput} {name username : Text}
    (h : checkedUsername data name = .ok username) (hkind : data.kind = .ssh) :
    (name ≠ [] ∧ ∀ c ∈ name, isNameChar c = true) ∧
      username ≠ [] ∧ ∀ c ∈ username, isHostChar c = true := by
  simp only [checkedUsername, hkind, if_true, Except.bind_eq_ok, validateName, resolveUser,
    require_eq_ok, Bool.and_eq_true, decide_eq_true_eq, List.all_eq_true] at h
  obtain ⟨-, ⟨⟨⟨hlength, -⟩, -⟩, hchars⟩, -, ⟨⟨hlength', -⟩, hchars'⟩, husername⟩ := h
  cases husername
  exact ⟨⟨List.ne_nil_of_length_pos hlength, hchars⟩, List.ne_nil_of_length_pos hlength', hchars'⟩

theorem newSecret_spec {row : Option Integration} {value : Option Text} {salt : Nat}
    {secret given : Text} (hsealed : ∀ old ∈ row, Sealed platform old)
    (hvalue : (row.isNone && value.isNone) = false)
    (h : newSecret platform system row value salt = .ok (secret, given)) :
    ∃ key salt, secret = platform.fernet.encrypt key salt given := by
  cases value with
  | none =>
      cases row with
      | none => cases hvalue
      | some row =>
          cases h
          exact hsealed row rfl
  | some value =>
      obtain ⟨token, htoken, hpair⟩ := Except.bind_eq_ok.mp h
      cases hpair
      unfold sealSecret at htoken
      split at htoken
      · cases htoken
      · rename_i key hkey
        cases htoken
        exact ⟨key, salt, rfl⟩

theorem savedRow_spec {data : IntegrationInput} {entryId : Option Nat} {row : Option Integration}
    {salt : Nat} {saved : Integration}
    (hsealed : ∀ old ∈ row, Sealed platform old)
    (h : savedRow platform system data entryId row salt = .ok saved) :
    WellFormed saved ∧ Sealed platform saved ∧ saved.id = row.elim system.nextId Integration.id ∧
      saved.name = Markdown.strip data.name := by
  simp only [savedRow, Except.bind_eq_ok, require_eq_ok] at h
  obtain ⟨host, hhost, username, husername, -, -, -, hvalue, -, -, -, -, ⟨secret, given⟩, hsecret,
    hrow⟩ := h
  have hvalue : (row.isNone && (data.secret.map Markdown.strip).isNone) = false :=
    (Bool.not_eq_true' _).mp (Bool.and_eq_true_iff.mp hvalue).2
  cases hrow
  refine ⟨⟨fun hkind => checkedHost_spec hhost hkind,
    fun hkind => (checkedUsername_spec husername hkind).1,
    fun hkind => (checkedUsername_spec husername hkind).2⟩,
    newSecret_spec hsealed hvalue hsecret, rfl, rfl⟩

/-- The rows that saves leave. -/
structure Kept (platform : Platform Key) (system : System Key) : Prop where
  formed : ∀ row ∈ system.rows, WellFormed row
  sealed : ∀ row ∈ system.rows, Sealed platform row
  below : ∀ row ∈ system.rows, row.id < system.nextId
  ids : (system.rows.map Integration.id).Nodup
  names : (system.rows.map Integration.name).Nodup

/-- **A save** adds a row of a new id, or replaces the row of its id; no other row has its name. -/
theorem save_spec {data : IntegrationInput} {entryId : Option Nat} {salt : Nat}
    (hsealed : ∀ row ∈ system.rows, Sealed platform row)
    (h : save platform system data entryId salt = .ok next) :
    ∃ saved, WellFormed saved ∧ Sealed platform saved ∧
      ((saved.id = system.nextId ∧ (∀ item ∈ system.rows, item.name ≠ saved.name) ∧
          next = { system with
            rows := system.rows ++ [saved], nextId := system.nextId + 1 }) ∨
        ∃ row ∈ system.rows, saved.id = row.id ∧
          (∀ item ∈ system.rows, item.id ≠ row.id → item.name ≠ saved.name) ∧
          next = { system with
            rows := system.rows.map fun old => if old.id = row.id then saved else old }) := by
  simp only [save, Except.bind_eq_ok, require_eq_ok] at h
  obtain ⟨row, hentry, -, -, -, hnames, -, -, -, -, saved, hsaved, hnext⟩ := h
  have hothers : ∀ item ∈ system.rows, some item.id ≠ entryId →
      item.name ≠ Markdown.strip data.name := by
    simpa [anyOther] using hnames
  cases row with
  | none =>
      cases entryId with
      | some id =>
          simp only [findEntry] at hentry
          split at hentry <;> cases hentry
      | none =>
          obtain ⟨hformed, hsealed', hid, hname⟩ := savedRow_spec (by simp) hsaved
          cases hnext
          refine ⟨saved, hformed, hsealed', .inl ⟨hid, fun item hitem => ?_, rfl⟩⟩
          rw [hname]
          exact hothers item hitem (by simp)
  | some row =>
      cases entryId with
      | none => cases hentry
      | some id =>
          simp only [findEntry] at hentry
          split at hentry
          · cases hentry
          · rename_i found hfound
            cases hentry
            have hmem : row ∈ system.rows := List.mem_of_find?_eq_some hfound
            have hid : row.id = id := by
              simpa using List.find?_some hfound
            obtain ⟨hformed, hsealed', hsame, hname⟩ :=
              savedRow_spec (fun old hold => by cases hold; exact hsealed _ hmem) hsaved
            cases hnext
            refine ⟨saved, hformed, hsealed', .inr ⟨row, hmem, hsame, fun item hitem hne => ?_,
              rfl⟩⟩
            rw [hname]
            exact hothers item hitem fun hsome => hne ((Option.some.inj hsome).trans hid.symm)

theorem nodup_map_concat {Value : Type} {key : Integration → Value} {rows : List Integration}
    {saved : Integration} (h : (rows.map key).Nodup) (hnew : ∀ item ∈ rows, key item ≠ key saved) :
    ((rows ++ [saved]).map key).Nodup := by
  rw [List.map_append, List.map_singleton, (List.perm_append_singleton _ _).nodup_iff,
    List.nodup_cons]
  refine ⟨fun hmem => ?_, h⟩
  obtain ⟨item, hitem, hsame⟩ := List.mem_map.mp hmem
  exact hnew item hitem hsame

theorem Kept.save (h : Kept platform system) {data : IntegrationInput} {entryId : Option Nat}
    {salt : Nat} (hsave : save platform system data entryId salt = .ok next) :
    Kept platform next := by
  obtain ⟨saved, hformed, hsealed, ⟨hid, hnames, rfl⟩ | ⟨row, hrow, hid, hnames, rfl⟩⟩ :=
    save_spec h.sealed hsave
  · refine ⟨fun item hitem => ?_, fun item hitem => ?_, fun item hitem => ?_, ?_, ?_⟩
    · obtain hitem | hitem := List.mem_append.mp hitem
      · exact h.formed item hitem
      · exact List.mem_singleton.mp hitem ▸ hformed
    · obtain hitem | hitem := List.mem_append.mp hitem
      · exact h.sealed item hitem
      · exact List.mem_singleton.mp hitem ▸ hsealed
    · obtain hitem | hitem := List.mem_append.mp hitem
      · exact Nat.lt_succ_of_lt (h.below item hitem)
      · rw [List.mem_singleton.mp hitem, hid]
        exact Nat.lt_succ_self _
    · refine nodup_map_concat h.ids fun item hitem hsame => ?_
      exact absurd (h.below item hitem) (by rw [hsame, hid]; exact Nat.lt_irrefl _)
    · exact nodup_map_concat h.names hnames
  · have hrows : ∀ item ∈ system.rows.map (fun old => if old.id = row.id then saved else old),
        item = saved ∨ item ∈ system.rows := by
      intro item hitem
      obtain ⟨old, hold, rfl⟩ := List.mem_map.mp hitem
      split
      · exact .inl rfl
      · exact .inr hold
    have hids : ∀ old : Integration, (if old.id = row.id then saved else old).id = old.id := by
      intro old
      split
      · rename_i hsame
        exact hid.trans hsame.symm
      · rfl
    refine ⟨fun item hitem => ?_, fun item hitem => ?_, fun item hitem => ?_, ?_, ?_⟩
    · obtain rfl | hitem := hrows item hitem
      · exact hformed
      · exact h.formed item hitem
    · obtain rfl | hitem := hrows item hitem
      · exact hsealed
      · exact h.sealed item hitem
    · obtain rfl | hitem := hrows item hitem
      · exact hid ▸ h.below row hrow
      · exact h.below item hitem
    · simpa only [List.map_map, Function.comp_def, hids] using h.ids
    · rw [List.map_map]
      refine List.Nodup.map_on (fun old hold other hother hsame => ?_) (.of_map _ h.ids)
      simp only [Function.comp_apply] at hsame
      split at hsame <;> split at hsame
      · rename_i hfirst hsecond
        exact List.inj_on_of_nodup_map h.ids hold hother (hfirst.trans hsecond.symm)
      · rename_i hfirst hsecond
        exact absurd hsame.symm (hnames other hother hsecond)
      · rename_i hfirst hsecond
        exact absurd hsame (hnames old hold hfirst)
      · exact List.inj_on_of_nodup_map h.names hold hother hsame

theorem kept_of_reach (hreach : Reach (step platform) (fun _ _ => True) .start system) :
    Kept platform system := by
  refine hreach.invariant (Kept platform) ⟨nofun, nofun, nofun, List.nodup_nil, List.nodup_nil⟩ ?_
  intro before action after h _ hstep
  cases action with
  | save data entryId salt =>
      have hsave : Vault.save platform before data entryId salt = .ok after := by
        cases hresult : Vault.save platform before data entryId salt with
        | error error => simp [step, hresult, Except.toOption] at hstep
        | ok result =>
            have hsame : some result = some after := by
              simpa [step, hresult, Except.toOption] using hstep
            cases hsame
            rfl
      exact h.save hsave
  | placeKey keyFile =>
      cases hstep
      exact ⟨h.formed, h.sealed, h.below, h.ids, h.names⟩

end

/-! ### Reading back -/

section

variable {row : Integration} {rest : Text}

theorem textLines_cons {line : Text} (hbreak : '\n' ∉ line) (rest : Text) :
    textLines (line ++ '\n' :: rest) =
      if line.any (· ≠ ' ') then line :: textLines rest else textLines rest := by
  have hpieces : ∀ c ∈ line, (c == '\n') = false := by
    intro c hc
    exact beq_false_of_ne fun hsame => hbreak (hsame ▸ hc)
  unfold textLines
  rw [List.splitOnP_append_cons_of_forall_mem hpieces _ (by decide), List.filter_cons]

/-- Lines that are not blank. -/
def IsLine (line : Text) : Prop := '\n' ∉ line ∧ line.any (· ≠ ' ') = true

theorem textLines_lines {lines : List Text} (h : ∀ line ∈ lines, IsLine line) (rest : Text) :
    textLines (lines.flatMap (fun line => line ++ ['\n']) ++ rest) = lines ++ textLines rest := by
  induction lines with
  | nil => rfl
  | cons line lines ih =>
      obtain ⟨hbreak, hseen⟩ := h line List.mem_cons_self
      rw [List.flatMap_cons, List.append_assoc, List.append_assoc, List.singleton_append,
        textLines_cons hbreak, if_pos hseen,
        ih fun line hline => h line (List.mem_cons_of_mem _ hline)]
      rfl

theorem textLines_nil : textLines [] = [] := rfl

theorem textLines_newline (rest : Text) : textLines ('\n' :: rest) = textLines rest :=
  textLines_cons List.not_mem_nil rest

theorem isDigit_of_mem_toString {number : Nat} {c : Char} (hc : c ∈ (toString number).toList) :
    c.isDigit = true := by
  refine Nat.isDigit_of_mem_toDigits (b := 10) (n := number) (by decide) (by decide) ?_
  simpa using hc

/-- The characters that need no care in any of the formats. -/
theorem not_mem_of_all {isGood : Char → Bool} {text : Text} (h : ∀ c ∈ text, isGood c = true)
    {bad : Char} (hbad : isGood bad = false) : bad ∉ text := fun hmem =>
  Bool.noConfusion (hbad.symm.trans (h bad hmem))

theorem managedName_chars {bad : Char} (hbad : bad ∉ "managed_".toList)
    (hdigit : bad.isDigit = false) :
    bad ∉ managedName row := by
  intro hmem
  obtain hmem | hmem := List.mem_append.mp hmem
  · exact hbad hmem
  · exact Bool.noConfusion (hdigit.symm.trans (isDigit_of_mem_toString hmem))

theorem managedName_injective {other : Integration} (h : managedName row = managedName other) :
    row.id = other.id :=
  Nat.repr_injective (String.toList_inj.mp (List.append_cancel_left h))

/-- The block of a host as it is read. -/
def block (row : Integration) : Text × List (Text × Text) :=
  (row.name, [("HostName".toList, row.host), ("User".toList, row.username),
    ("IdentityFile".toList, "~/.ssh/".toList ++ managedName row),
    ("IdentitiesOnly".toList, "yes".toList),
    ("StrictHostKeyChecking".toList, "accept-new".toList)])

def blockLines (row : Integration) : List Text :=
  ["Host ".toList ++ row.name, "    HostName ".toList ++ row.host,
    "    User ".toList ++ row.username,
    "    IdentityFile ~/.ssh/".toList ++ managedName row, "    IdentitiesOnly yes".toList,
    "    StrictHostKeyChecking accept-new".toList]

theorem hostBlock_eq (row : Integration) :
    hostBlock row = (blockLines row).flatMap fun line => line ++ ['\n'] := by
  simp only [hostBlock, blockLines, List.flatMap_cons, List.flatMap_nil, List.append_assoc,
    List.singleton_append, List.append_nil]

theorem directive_eq (indent : Nat) (keyword : Text) {argument : Text} (hkeyword : ' ' ∉ keyword)
    (hne : keyword ≠ []) (hargument : ' ' ∉ argument) :
    directive (List.replicate indent ' ' ++ (keyword ++ ' ' :: argument)) =
      (keyword, argument) := by
  have hbody : (List.replicate indent ' ' ++ (keyword ++ ' ' :: argument)).dropWhile (· = ' ') =
      keyword ++ ' ' :: argument := by
    rw [List.dropWhile_append_of_pos fun c hc => by simp [List.eq_of_mem_replicate hc]]
    obtain ⟨c, later, rfl⟩ := List.exists_cons_of_ne_nil hne
    have hc : c ≠ ' ' := fun hsame => hkeyword (hsame ▸ List.mem_cons_self)
    rw [List.cons_append, List.dropWhile_cons_of_neg (by simpa using hc)]
  have hrest : (' ' :: argument).dropWhile (· = ' ') = argument := by
    rw [List.dropWhile_cons_of_pos (by decide)]
    cases argument with
    | nil => rfl
    | cons c later =>
        have hc : c ≠ ' ' := fun hsame => hargument (hsame ▸ List.mem_cons_self)
        rw [List.dropWhile_cons_of_neg (by simpa using hc)]
  unfold directive
  simp only [hbody, List.takeWhile_append_cons hkeyword, List.dropWhile_append_cons hkeyword, hrest]

/-- The fields that the configuration takes have none of its separators. -/
structure Plain (row : Integration) : Prop where
  name : '\n' ∉ row.name ∧ ' ' ∉ row.name
  host : '\n' ∉ row.host ∧ ' ' ∉ row.host
  username : '\n' ∉ row.username ∧ ' ' ∉ row.username

theorem WellFormed.plain (h : WellFormed row) (hkind : row.kind = .ssh) : Plain row := by
  have hname := (h.name hkind).2
  have hhost := h.host (by rw [hkind]; decide)
  have husername := (h.username hkind).2
  exact ⟨⟨not_mem_of_all hname rfl, not_mem_of_all hname rfl⟩,
    ⟨not_mem_of_all hhost rfl, not_mem_of_all hhost rfl⟩,
    ⟨not_mem_of_all husername rfl, not_mem_of_all husername rfl⟩⟩

theorem isLine_append {front text : Text} (hbreak : '\n' ∉ front)
    (hseen : front.any (· ≠ ' ') = true) (htext : '\n' ∉ text) : IsLine (front ++ text) :=
  ⟨by simp [hbreak, htext], by rw [List.any_append, hseen, Bool.true_or]⟩

theorem isLine_blockLines (h : Plain row) : ∀ line ∈ blockLines row, IsLine line := by
  have hmanaged : '\n' ∉ managedName row := managedName_chars (by decide) rfl
  intro line hline
  simp only [blockLines, List.mem_cons, List.not_mem_nil, or_false] at hline
  obtain rfl | rfl | rfl | rfl | rfl | rfl := hline
  · exact isLine_append (by decide) (by decide) h.name.1
  · exact isLine_append (by decide) (by decide) h.host.1
  · exact isLine_append (by decide) (by decide) h.username.1
  · exact isLine_append (by decide) (by decide) hmanaged
  · exact ⟨by decide, by decide⟩
  · exact ⟨by decide, by decide⟩

theorem directives_blockLines (h : Plain row) :
    (blockLines row).map directive = ("Host".toList, row.name) :: (block row).2 := by
  have hmanaged : ' ' ∉ "~/.ssh/".toList ++ managedName row := by
    rw [List.mem_append, not_or]
    exact ⟨by decide, managedName_chars (by decide) rfl⟩
  have hhost : directive ("Host ".toList ++ row.name) = ("Host".toList, row.name) :=
    directive_eq 0 "Host".toList (by decide) (by decide) h.name.2
  have hhostName : directive ("    HostName ".toList ++ row.host) = ("HostName".toList, row.host) :=
    directive_eq 4 "HostName".toList (by decide) (by decide) h.host.2
  have huser : directive ("    User ".toList ++ row.username) = ("User".toList, row.username) :=
    directive_eq 4 "User".toList (by decide) (by decide) h.username.2
  have hidentity : directive ("    IdentityFile ~/.ssh/".toList ++ managedName row) =
      ("IdentityFile".toList, "~/.ssh/".toList ++ managedName row) :=
    directive_eq 4 "IdentityFile".toList (by decide) (by decide) hmanaged
  have honly : directive "    IdentitiesOnly yes".toList =
      ("IdentitiesOnly".toList, "yes".toList) := by decide
  have hstrict : directive "    StrictHostKeyChecking accept-new".toList =
      ("StrictHostKeyChecking".toList, "accept-new".toList) := by decide
  simp only [blockLines, List.map_cons, List.map_nil, block, hhost, hhostName, huser, hidentity,
    honly, hstrict]

/-- A block is read as a host of its own. -/
theorem hostBlocks_block (h : Plain row) {directives : List (Text × Text)}
    {blocks : List (Text × List (Text × Text))} (hrest : hostBlocks directives = ([], blocks)) :
    hostBlocks ((blockLines row).map directive ++ directives) = ([], block row :: blocks) := by
  have hkeywords : ∀ keyword ∈ ["HostName".toList, "User".toList, "IdentityFile".toList,
      "IdentitiesOnly".toList, "StrictHostKeyChecking".toList], keyword ≠ "Host".toList := by decide
  simp only [List.forall_mem_cons] at hkeywords
  rw [directives_blockLines h]
  simp only [block, List.cons_append, List.nil_append, hostBlocks, hrest, hkeywords, if_false,
    if_true]

/-- **The configuration is read back.** -/
theorem readConfig_hostBlocks {rows : List Integration} (h : ∀ row ∈ rows, Plain row) :
    readConfig (joinLines (rows.map hostBlock)) = ([], rows.map block) := by
  have hlines : textLines (joinLines (rows.map hostBlock)) = rows.flatMap blockLines := by
    induction rows with
    | nil => rfl
    | cons row rows ih =>
        have hrow := h row List.mem_cons_self
        have hrows := ih fun row hmem => h row (List.mem_cons_of_mem _ hmem)
        have hblock := hostBlock_eq row
        cases rows with
        | nil =>
            have halone := textLines_lines (isLine_blockLines hrow) []
            rw [List.append_nil, textLines_nil, List.append_nil, ← hblock] at halone
            simp only [joinLines, List.map_cons, List.map_nil, List.intercalate_singleton, halone,
              List.flatMap_cons, List.flatMap_nil, List.append_nil]
        | cons other rows =>
            rw [List.flatMap_cons, ← hrows, joinLines, List.map_cons, List.map_cons,
              List.intercalate_cons_cons, hblock, List.append_assoc,
              textLines_lines (isLine_blockLines hrow), List.singleton_append, textLines_newline]
            rfl
  unfold readConfig
  rw [hlines]
  clear hlines
  induction rows with
  | nil => rfl
  | cons row rows ih =>
      have hrows := ih fun row hmem => h row (List.mem_cons_of_mem _ hmem)
      rw [List.flatMap_cons, List.map_append, hostBlocks_block (h row List.mem_cons_self) hrows]
      rfl

theorem not_mem_quote {text : Text} {bad : Char} (hpercent : bad ≠ '%')
    (hbad : PercentEncoding.isUnreserved bad = false) : bad ∉ PercentEncoding.quote text := by
  intro hmem
  obtain hsame | hgood := PercentEncoding.quote_chars hmem
  · exact hpercent hsame
  · exact Bool.noConfusion (hbad.symm.trans hgood)

theorem readCredential_credential (row : Integration) (secret : Text) :
    readCredential (credential row secret) = some ⟨gitUser row, secret, row.host⟩ := by
  have hat : '@' ∉ PercentEncoding.quote (gitUser row) ++ ':' :: PercentEncoding.quote secret := by
    simp only [List.mem_append, List.mem_cons, not_or]
    exact ⟨not_mem_quote (by decide) rfl, by decide, not_mem_quote (by decide) rfl⟩
  have hcolon : ':' ∉ PercentEncoding.quote (gitUser row) := not_mem_quote (by decide) rfl
  have hdrop : (credential row secret).drop 8 = (PercentEncoding.quote (gitUser row) ++ ':' ::
      PercentEncoding.quote secret) ++ '@' :: row.host := rfl
  have hbegins : "https://".toList <+: credential row secret := List.prefix_append _ _
  unfold readCredential
  simp only [if_pos hbegins, hdrop, List.takeWhile_append_cons hat, List.dropWhile_append_cons hat,
    List.takeWhile_append_cons hcolon, List.dropWhile_append_cons hcolon, List.drop_one,
    List.tail_cons, PercentEncoding.unquote_quote]
  rfl

theorem isLine_credential (secret : Text) (hhost : ∀ c ∈ row.host, isHostChar c = true) :
    IsLine (credential row secret) := by
  refine isLine_append (by decide) (by decide) ?_
  simp only [List.mem_append, List.mem_cons, not_or]
  exact ⟨⟨not_mem_quote (by decide) rfl, by decide, not_mem_quote (by decide) rfl⟩, by decide,
    not_mem_of_all hhost rfl⟩

/-- **The credentials are read back.** -/
theorem readCredentials_credentials {rows : List Integration}
    (hhosts : ∀ row ∈ rows, ∀ c ∈ row.host, isHostChar c = true) :
    readCredentials (joinLines (rows.map fun row => credential row row.given) ++ ['\n']) =
      some (rows.map fun row => ⟨gitUser row, row.given, row.host⟩) := by
  have hlines : textLines (joinLines (rows.map fun row => credential row row.given) ++ ['\n']) =
      rows.map fun row => credential row row.given := by
    induction rows with
    | nil => rfl
    | cons row rows ih =>
        obtain ⟨hbreak, hseen⟩ := isLine_credential row.given
          (hhosts row List.mem_cons_self)
        have hrows := ih fun row hmem => hhosts row (List.mem_cons_of_mem _ hmem)
        cases rows with
        | nil =>
            simp only [joinLines, List.map_cons, List.map_nil, List.intercalate_singleton]
            rw [textLines_cons hbreak, if_pos hseen]
            rfl
        | cons other rows =>
            rw [List.map_cons, List.map_cons, joinLines, List.intercalate_cons_cons,
              List.append_assoc, List.append_assoc, List.singleton_append, textLines_cons hbreak,
              if_pos hseen]
            exact congrArg (List.cons _) hrows
  unfold readCredentials
  rw [hlines]
  clear hlines
  induction rows with
  | nil => rfl
  | cons row rows ih =>
      have hrows := ih fun row hmem => hhosts row (List.mem_cons_of_mem _ hmem)
      rw [List.map_cons, List.mapM_cons, readCredential_credential, hrows]
      rfl

/-- **The tokens are read back.** -/
theorem readObjects_dumps (tokens : List Token) :
    readObjects (dumps tokens) = some (tokens.map Token.fields) := by
  have hpairs := JsonText.reads_string.pair JsonText.reads_string
  have hobjects := hpairs.sequence '{' '}' (by decide) fun pair => ⟨nofun, nofun⟩
  have harray := hobjects.sequence '[' ']' (by decide) fun fields => ⟨nofun, nofun⟩
  have hread := harray (tokens.map Token.fields) []
  rw [List.append_nil] at hread
  unfold readObjects dumps
  rw [hread]

end

/-! ### Writing -/

section

variable {name body other : Text} {directory : Directory}

@[simp] theorem writeSecret_same : writeSecret name body directory name = some body := by
  simp [writeSecret]

theorem writeSecret_other (hne : other ≠ name) (hdot : other.head? ≠ some '.') :
    writeSecret name body directory other = directory other := by
  have htemporary : other ≠ '.' :: (name ++ ".tmp".toList) := fun hsame => hdot (by rw [hsame]; rfl)
  rw [writeSecret, Function.update_of_ne hne, Function.update_of_ne htemporary]

theorem unlinkManaged_eq (keep : List Text) (directory : Directory) (name : Text) :
    unlinkManaged keep directory name =
      if "managed_".toList <+: name ∧ name ∉ keep then none else directory name :=
  if_congr (by simp only [Bool.and_eq_true, List.isPrefixOf_iff_prefix, Bool.not_eq_true',
    List.contains_eq_mem, decide_eq_false_iff_not]) rfl rfl

theorem unlinkManaged_other {keep : List Text} (hname : ¬"managed_".toList <+: name) :
    unlinkManaged keep directory name = directory name := by
  rw [unlinkManaged_eq]
  exact if_neg fun hboth => hname hboth.1

/-- A managed name is none of the others that are written. -/
theorem managed_ne (hname : "managed_".toList <+: name) :
    name.head? ≠ some '.' ∧ name ≠ "config".toList ∧ name ≠ "git-credentials".toList ∧
      name ≠ "cli-tokens.json".toList := by
  have hhead : name.head? = some 'm' := by
    obtain ⟨rest, rfl⟩ := hname
    rfl
  have hne : ∀ {other : Text}, other.head? ≠ some 'm' → name ≠ other := by
    rintro other hother rfl
    exact hother hhead
  exact ⟨by rw [hhead]; decide, hne (by decide), hne (by decide), hne (by decide)⟩

theorem managed_managedName (row : Integration) : "managed_".toList <+: managedName row :=
  List.prefix_append _ _

def isSsh (row : Integration) : Bool := row.kind = .ssh

/-- The keys of some rows. -/
def writeKeys (rows : List Integration) (directory : Directory) : Directory :=
  rows.foldl (fun directory row => writeSecret (managedName row) (row.given ++ ['\n']) directory)
    directory

/-- What the loop leaves. -/
theorem foldl_writeRow (rows : List Integration) (files : Files) :
    (rows.map fun row => (row, row.given)).foldl writeRow files =
      { config := files.config ++ (rows.filter isSsh).map hostBlock
        credentials := files.credentials ++
          (rows.filter (!isSsh ·)).map fun row => credential row row.given
        tokens := files.tokens ++
          (rows.filter (!isSsh ·)).map fun row => ⟨row.kind.value, row.host, row.given⟩
        keep := files.keep ++ (rows.filter isSsh).map managedName
        directory := writeKeys (rows.filter isSsh) files.directory } := by
  induction rows generalizing files with
  | nil => simp [writeKeys]
  | cons row rows ih =>
      rw [List.map_cons, List.foldl_cons, ih]
      by_cases hssh : row.kind = .ssh
      · simp [writeRow, hssh, isSsh, writeKeys]
      · simp [writeRow, hssh, isSsh]

theorem writeKeys_other {rows : List Integration} (hdot : name.head? ≠ some '.')
    (hrows : ∀ row ∈ rows, name ≠ managedName row) (directory : Directory) :
    writeKeys rows directory name = directory name := by
  induction rows generalizing directory with
  | nil => rfl
  | cons row rows ih =>
      have hrest := ih (fun row hmem => hrows row (List.mem_cons_of_mem _ hmem))
        (writeSecret (managedName row) (row.given ++ ['\n']) directory)
      exact hrest.trans (writeSecret_other (hrows row List.mem_cons_self) hdot)

theorem writeKeys_of_mem {rows : List Integration} (hnodup : (rows.map managedName).Nodup)
    {row : Integration} (hrow : row ∈ rows) (directory : Directory) :
    writeKeys rows directory (managedName row) = some (row.given ++ ['\n']) := by
  induction rows generalizing directory with
  | nil => cases hrow
  | cons first rows ih =>
      obtain ⟨hfirst, hnodup⟩ := List.nodup_cons.mp hnodup
      obtain rfl | hrow := List.mem_cons.mp hrow
      · have hothers : ∀ other ∈ rows, managedName row ≠ managedName other :=
          fun other hother hsame => hfirst (hsame ▸ List.mem_map_of_mem hother)
        have hrest := writeKeys_other (managed_ne (managed_managedName row)).1 hothers
          (writeSecret (managedName row) (row.given ++ ['\n']) directory)
        exact hrest.trans writeSecret_same
      · exact ih hnodup hrow _

theorem unsealAll_ok {unsealed : Text → Except String Text} {rows : List Integration}
    (h : ∀ row ∈ rows, unsealed row.secret = .ok row.given) :
    unsealAll unsealed rows = .ok (rows.map fun row => (row, row.given)) := by
  induction rows with
  | nil => rfl
  | cons row rows ih =>
      rw [unsealAll, h row List.mem_cons_self,
        ih fun row hmem => h row (List.mem_cons_of_mem _ hmem)]
      rfl

theorem unsealAll_error {unsealed : Text → Except String Text} {rows : List Integration}
    (h : ∃ row ∈ rows, (unsealed row.secret).isOk = false) :
    ∃ error, unsealAll unsealed rows = .error error := by
  induction rows with
  | nil =>
      obtain ⟨row, hrow, -⟩ := h
      cases hrow
  | cons row rows ih =>
      cases hrow : unsealed row.secret with
      | error error =>
          refine ⟨error, ?_⟩
          rw [unsealAll, hrow]
          rfl
      | ok secret =>
          have hlater : ∃ row ∈ rows, (unsealed row.secret).isOk = false := by
            obtain ⟨failing, hmem, hfails⟩ := h
            obtain rfl | hmem := List.mem_cons.mp hmem
            · simp [hrow, Except.isOk, Except.toBool] at hfails
            · exact ⟨failing, hmem, hfails⟩
          obtain ⟨error, herror⟩ := ih hlater
          refine ⟨error, ?_⟩
          rw [unsealAll, hrow, herror]
          rfl

end

/-! ### The vault -/

section

/-- The files are read back as these rows, which are all enabled. -/
structure Exact (rows : List Integration) (directory : Directory) : Prop where
  config : (directory "config".toList).map readConfig = some ([], (rows.filter isSsh).map block)
  aliases : ((rows.filter isSsh).map Integration.name).Nodup
  credentials : (directory "git-credentials".toList).bind readCredentials =
    some ((rows.filter (!isSsh ·)).map fun row => ⟨gitUser row, row.given, row.host⟩)
  tokens : (directory "cli-tokens.json".toList).bind readObjects =
    some ((rows.filter (!isSsh ·)).map fun row =>
      Token.fields ⟨row.kind.value, row.host, row.given⟩)
  keys : ∀ row ∈ rows.filter isSsh, directory (managedName row) = some (row.given ++ ['\n'])
  onlyKeys : ∀ name, "managed_".toList <+: name → directory name ≠ none →
    ∃ row ∈ rows.filter isSsh, name = managedName row

/-- No credential is left in the files. -/
structure Cleared (directory : Directory) : Prop where
  config : directory "config".toList = some []
  credentials : directory "git-credentials".toList = some []
  tokens : directory "cli-tokens.json".toList = some "[]".toList
  keys : ∀ name, "managed_".toList <+: name → directory name = none

/-- The files that `materialize` is about. -/
def IsVaultFile (name : Text) : Prop :=
  name = "config".toList ∨ name = "git-credentials".toList ∨ name = "cli-tokens.json".toList ∨
    "managed_".toList <+: name

/-- What `materialize` promises, whatever is in the directory. -/
structure Faithful (unsealed : Text → Except String Text) (rows : List Integration)
    (directory : Directory) : Prop where
  exact : (∀ row ∈ rows.filter isActive, (unsealed row.secret).isOk = true) →
    (materialize unsealed rows directory).1 = .ok () ∧
      Exact (rows.filter isActive) (materialize unsealed rows directory).2
  closed : (∃ row ∈ rows.filter isActive, (unsealed row.secret).isOk = false) →
    (∃ error, (materialize unsealed rows directory).1 = .error error) ∧
      Cleared (materialize unsealed rows directory).2
  same : ∀ other name, IsVaultFile name →
    (materialize unsealed rows other).2 name = (materialize unsealed rows directory).2 name

variable {unsealed : Text → Except String Text} {rows : List Integration}

/-- A name that is no managed one is not unlinked. -/
theorem unmanaged {name : Text} (h : name.head? ≠ some 'm') : ¬"managed_".toList <+: name := by
  rintro ⟨rest, rfl⟩
  exact h rfl

theorem nodup_managedNames (hids : (rows.map Integration.id).Nodup) :
    (((rows.filter isActive).filter isSsh).map managedName).Nodup := by
  have hnodup := hids.sublist (((List.filter_sublist (p := isSsh)).trans
    (List.filter_sublist (p := isActive) (l := rows))).map Integration.id)
  exact List.Nodup.map_on (fun row hrow other hother hsame =>
    List.inj_on_of_nodup_map hnodup hrow hother (managedName_injective hsame)) (.of_map _ hnodup)

/-- The files of a call that unseals everything, as they are written. -/
structure Written (rows : List Integration) (directory : Directory) : Prop where
  config : directory "config".toList = some (joinLines ((rows.filter isSsh).map hostBlock))
  credentials : directory "git-credentials".toList =
    some (joinLines ((rows.filter (!isSsh ·)).map fun row => credential row row.given) ++ ['\n'])
  tokens : directory "cli-tokens.json".toList = some (dumps ((rows.filter (!isSsh ·)).map fun row =>
    ⟨row.kind.value, row.host, row.given⟩))
  keys : ∀ row ∈ rows.filter isSsh, directory (managedName row) = some (row.given ++ ['\n'])
  onlyKeys : ∀ name, "managed_".toList <+: name →
    (∀ row ∈ rows.filter isSsh, name ≠ managedName row) → directory name = none

theorem materialize_written (hids : (rows.map Integration.id).Nodup)
    (hunsealed : ∀ row ∈ rows.filter isActive, unsealed row.secret = .ok row.given)
    (directory : Directory) :
    (materialize unsealed rows directory).1 = .ok () ∧
      Written (rows.filter isActive) (materialize unsealed rows directory).2 := by
  unfold materialize
  simp only [unsealAll_ok hunsealed, foldl_writeRow, List.nil_append]
  refine ⟨trivial, ?_, ?_, ?_, fun row hrow => ?_, fun name hname hnone => ?_⟩
  · rw [unlinkManaged_other (unmanaged (by decide)), writeSecret_other (by decide) (by decide),
      writeSecret_other (by decide) (by decide), writeSecret_same]
  · rw [unlinkManaged_other (unmanaged (by decide)), writeSecret_other (by decide) (by decide),
      writeSecret_same]
  · rw [unlinkManaged_other (unmanaged (by decide)), writeSecret_same]
  · have hkeep : ¬("managed_".toList <+: managedName row ∧
        managedName row ∉ ((rows.filter isActive).filter isSsh).map managedName) := fun hboth =>
      hboth.2 (List.mem_map_of_mem hrow)
    obtain ⟨hdot, hconfig, hcredentials, htokens⟩ := managed_ne (managed_managedName row)
    rw [unlinkManaged_eq, if_neg hkeep, writeSecret_other htokens hdot,
      writeSecret_other hcredentials hdot, writeSecret_other hconfig hdot]
    exact writeKeys_of_mem (nodup_managedNames hids) hrow _
  · rw [unlinkManaged_eq]
    refine if_pos ⟨hname, fun hmem => ?_⟩
    obtain ⟨row, hrow, hsame⟩ := List.mem_map.mp hmem
    exact hnone row hrow hsame.symm

/-- What is written is read back. -/
theorem Written.exact {directory : Directory} (h : Written (rows.filter isActive) directory)
    (hformed : ∀ row ∈ rows, WellFormed row) (hnames : (rows.map Integration.name).Nodup) :
    Exact (rows.filter isActive) directory := by
  have hactive : ∀ row ∈ rows.filter isActive, row ∈ rows ∧ row.kind ≠ .telegram := by
    intro row hrow
    have hboth := List.mem_filter.mp hrow
    exact ⟨hboth.1, by simpa [isActive] using (Bool.and_eq_true_iff.mp hboth.2).2⟩
  have hplain : ∀ row ∈ (rows.filter isActive).filter isSsh, Plain row := by
    intro row hrow
    have hboth := List.mem_filter.mp hrow
    exact (hformed row (hactive row hboth.1).1).plain (of_decide_eq_true hboth.2)
  have hhosts : ∀ row ∈ (rows.filter isActive).filter (!isSsh ·),
      ∀ c ∈ row.host, isHostChar c = true := by
    intro row hrow
    obtain ⟨hmem, hkind⟩ := hactive row (List.mem_of_mem_filter hrow)
    exact (hformed row hmem).host hkind
  refine ⟨?_, ?_, ?_, ?_, h.keys, fun name hname hsome => ?_⟩
  · rw [h.config, Option.map_some, readConfig_hostBlocks hplain]
  · exact hnames.sublist (((List.filter_sublist).trans List.filter_sublist).map _)
  · rw [h.credentials, Option.bind_some, readCredentials_credentials hhosts]
  · rw [h.tokens, Option.bind_some, readObjects_dumps, List.map_map]
    rfl
  · by_contra hnone
    refine hsome (h.onlyKeys name hname fun row hrow hsame => hnone ⟨row, hrow, hsame⟩)

theorem Written.same {first second : Directory} (h : Written rows first)
    (h' : Written rows second) {name : Text} (hname : IsVaultFile name) :
    first name = second name := by
  obtain rfl | rfl | rfl | hmanaged := hname
  · exact h.config.trans h'.config.symm
  · exact h.credentials.trans h'.credentials.symm
  · exact h.tokens.trans h'.tokens.symm
  · by_cases hkey : ∃ row ∈ rows.filter isSsh, name = managedName row
    · obtain ⟨row, hrow, rfl⟩ := hkey
      exact (h.keys row hrow).trans (h'.keys row hrow).symm
    · have hnone : ∀ row ∈ rows.filter isSsh, name ≠ managedName row := fun row hrow hsame =>
        hkey ⟨row, hrow, hsame⟩
      exact (h.onlyKeys name hmanaged hnone).trans (h'.onlyKeys name hmanaged hnone).symm

theorem Cleared.same {first second : Directory} (h : Cleared first) (h' : Cleared second)
    {name : Text} (hname : IsVaultFile name) : first name = second name := by
  obtain rfl | rfl | rfl | hmanaged := hname
  · exact h.config.trans h'.config.symm
  · exact h.credentials.trans h'.credentials.symm
  · exact h.tokens.trans h'.tokens.symm
  · exact (h.keys name hmanaged).trans (h'.keys name hmanaged).symm

theorem materialize_error
    (hfails : ∃ row ∈ rows.filter isActive, (unsealed row.secret).isOk = false)
    (directory : Directory) :
    (∃ error, (materialize unsealed rows directory).1 = .error error) ∧
      Cleared (materialize unsealed rows directory).2 := by
  obtain ⟨error, herror⟩ := unsealAll_error hfails
  unfold materialize
  simp only [herror]
  refine ⟨⟨error, rfl⟩, ?_, ?_, ?_, ?_⟩
  · rw [unlinkManaged_other (unmanaged (by decide)), writeSecret_other (by decide) (by decide),
      writeSecret_other (by decide) (by decide), writeSecret_same]
  · rw [unlinkManaged_other (unmanaged (by decide)), writeSecret_other (by decide) (by decide),
      writeSecret_same]
  · rw [unlinkManaged_other (unmanaged (by decide)), writeSecret_same]
  · intro name hname
    rw [unlinkManaged_eq]
    exact if_pos ⟨hname, List.not_mem_nil⟩

variable {Key : Type} {platform : Platform Key}

/-- What can be unsealed is what was given. -/
theorem unsealSecret_eq {row : Integration} (h : Sealed platform row) {keyFile : Option Key}
    (hok : (unsealSecret platform keyFile row.secret).isOk = true) :
    unsealSecret platform keyFile row.secret = .ok row.given := by
  obtain ⟨key, salt, hsecret⟩ := h
  unfold unsealSecret at hok ⊢
  cases keyFile with
  | none => cases hok
  | some present =>
      cases hvalue : platform.fernet.decrypt present row.secret with
      | none => simp [hvalue, Except.isOk, Except.toBool] at hok
      | some value =>
          have hsame : value = row.given :=
            platform.fernet.authentic key present salt row.given value (hsecret ▸ hvalue)
          simp only [hvalue, hsame]

/-- **The vault files are exact**, after any saves, for the rows in any order. -/
theorem vault_files_exact (platform : Platform Key) (system : System Key)
    (hreach : Reach (step platform) (fun _ _ => True) .start system) (rows : List Integration)
    (hrows : rows.Perm system.rows) (directory : Directory) :
    Faithful (unsealSecret platform system.keyFile) rows directory := by
  have hkept := kept_of_reach hreach
  have hids : (rows.map Integration.id).Nodup := (hrows.map _).nodup_iff.mpr hkept.ids
  have hwritten : (∀ row ∈ rows.filter isActive,
      (unsealSecret platform system.keyFile row.secret).isOk = true) → ∀ directory,
      (materialize (unsealSecret platform system.keyFile) rows directory).1 = .ok () ∧
        Written (rows.filter isActive)
          (materialize (unsealSecret platform system.keyFile) rows directory).2 := by
    intro hok
    refine materialize_written hids fun row hrow => unsealSecret_eq ?_ (hok row hrow)
    exact hkept.sealed row (hrows.mem_iff.mp (List.mem_of_mem_filter hrow))
  refine ⟨fun hok => ?_, fun hfails => materialize_error hfails directory,
    fun other name hname => ?_⟩
  · obtain ⟨hresult, hfiles⟩ := hwritten hok directory
    exact ⟨hresult, hfiles.exact (fun row hrow => hkept.formed row (hrows.mem_iff.mp hrow))
      ((hrows.map _).nodup_iff.mpr hkept.names)⟩
  · by_cases hok : ∀ row ∈ rows.filter isActive,
        (unsealSecret platform system.keyFile row.secret).isOk = true
    · exact (hwritten hok other).2.same (hwritten hok directory).2 hname
    · have hfails : ∃ row ∈ rows.filter isActive,
          (unsealSecret platform system.keyFile row.secret).isOk = false := by
        simpa only [not_forall, exists_prop, Bool.not_eq_true] using hok
      exact (materialize_error hfails other).2.same (materialize_error hfails directory).2 hname

end

/-! ### A vault -/

/-- A cipher whose keys are numbers. -/
def mark (key _salt : Nat) (value : Text) : Text := List.replicate key 'k' ++ '.' :: value

def unmark (key : Nat) (token : Text) : Option Text :=
  if (token.takeWhile (· ≠ '.')).length = key then some ((token.dropWhile (· ≠ '.')).drop 1)
  else none

theorem unmark_mark (key key' salt : Nat) (value value' : Text)
    (h : unmark key' (mark key salt value) = some value') : value' = value := by
  have hmark : '.' ∉ List.replicate key 'k' := fun hmem =>
    absurd (List.eq_of_mem_replicate hmem) (by decide)
  simp only [unmark, mark, List.dropWhile_append_cons hmark, List.drop_one, List.tail_cons] at h
  split at h
  · exact (Option.some.inj h).symm
  · cases h

def marks : Fernet Nat := ⟨mark, unmark, unmark_mark⟩

def somePlatform : Platform Nat := ⟨marks, fun _ _ => .ok (), fun _ => true⟩

def deployKey : IntegrationInput where
  name := "deploy".toList
  kind := .ssh
  host := "build.example".toList
  username := []
  secret := some "KEY".toList
  enabled := true
  webhookUrl := []
  nameLength := by decide
  hostLength := by decide
  usernameLength := by decide
  secretLength := by decide

def pagesToken : IntegrationInput where
  name := "pages".toList
  kind := .github
  host := "github.com".toList
  username := "a@b\n".toList
  secret := some "to ken".toList
  enabled := true
  webhookUrl := []
  nameLength := by decide
  hostLength := by decide
  usernameLength := by decide
  secretLength := by decide

def botToken : IntegrationInput where
  name := "bot".toList
  kind := .telegram
  host := []
  username := []
  secret := some "1:x".toList
  enabled := true
  webhookUrl := []
  nameLength := by decide
  hostLength := by decide
  usernameLength := by decide
  secretLength := by decide

/-- Two connections over an old key. -/
theorem vault_files_exact_two :
    ∃ system, run (step somePlatform) .start
        [.placeKey (some 1), .save deployKey none 0, .save pagesToken none 0] = some system ∧
      Faithful (unsealSecret somePlatform system.keyFile) system.rows fun name =>
        if name = "managed_7".toList then some "OLD".toList else none := by
  have hruns : (run (step somePlatform) .start
      [.placeKey (some 1), .save deployKey none 0, .save pagesToken none 0]).isSome = true := by
    decide +kernel
  obtain ⟨system, hrun⟩ := Option.isSome_iff_exists.mp hruns
  exact ⟨system, hrun, vault_files_exact somePlatform system (reach_of_run_all hrun) system.rows
    (.refl _) _⟩

/-- The secret of the bot cannot be unsealed, and yet nothing is raised and a key is written. And
what an interrupted write has left is still there when a call raises. -/
theorem vault_leaves_credentials :
    (run (step somePlatform) .start [.placeKey (some 1), .save botToken none 0,
      .placeKey (some 2), .save deployKey none 0]).any (fun system =>
        system.rows.any (fun row => row.enabled &&
          !(unsealSecret somePlatform system.keyFile row.secret).isOk) &&
        (materialize (unsealSecret somePlatform system.keyFile) system.rows fun _ => none).1.isOk &&
        (materialize (unsealSecret somePlatform system.keyFile) system.rows fun _ => none).2
          "managed_2".toList = some "KEY\n".toList) = true ∧
    (run (step somePlatform) .start [.placeKey (some 1), .save deployKey none 0,
      .placeKey (some 2)]).any (fun system =>
        !(materialize (unsealSecret somePlatform system.keyFile) system.rows fun name =>
          if name = ".managed_1.tmp".toList then some "KEY\n".toList else none).1.isOk &&
        (materialize (unsealSecret somePlatform system.keyFile) system.rows fun name =>
          if name = ".managed_1.tmp".toList then some "KEY\n".toList else none).2
            ".managed_1.tmp".toList = some "KEY\n".toList) = true := by
  constructor <;> decide +kernel

end CodexServer.Vault
