import CodexServer.Scrub

/-!
# Which secrets leave with an error report

Two events that differ in secrets alone are reported alike if the filter finds each of these under
its name. It does so in the headers, the body and the breadcrumbs. A cookie goes by its own name and
an entry of the environment by that of CGI, and neither is a name the filter knows.
-/

open Dictionary (Related mapValues update mapValues_eq_iff mapValues_mapValues)

namespace CodexServer.Scrub

variable {relation : String → Json → Json → Prop} {isNumber : ℚ → Prop} {value other : Json}
  {fields others event report : Fields} {key name : String}

/-! ### Entry by entry -/

theorem inFields_eq_iff {f : String → Json → Json} :
    inFields (mapValues f) (.object fields) = inFields (mapValues f) (.object others) ↔
      Related (fun key value other => f key value = f key other) fields others := by
  unfold inFields
  rw [Json.object.injEq, mapValues_eq_iff]

/-- A filter makes the same of what differs within entries that it makes the same. -/
theorem Within.inFields_eq {f : String → Json → Json} (h : Within relation value other)
    (hentry : ∀ key value other, relation key value other → f key value = f key other) :
    inFields (mapValues f) value = inFields (mapValues f) other := by
  cases h with
  | same => rfl
  | fields hrelated => exact inFields_eq_iff.mpr (hrelated.imp hentry)

theorem Within.entry_eq {isSecret : String → Bool} (h : Within (SecretAt isSecret) value other)
    (hname : isSecret name = false) : entry name value = entry name other := by
  cases h with
  | same => rfl
  | fields hrelated =>
      change List.lookup _ _ = List.lookup _ _
      rcases hrelated.lookup name with ⟨hnone, hnone'⟩ | ⟨found, found', hfound, hfound', hsecret⟩
      · rw [hnone, hnone']
      · rw [hfound, hfound', hsecret hname]

/-! ### The filter -/

theorem scrubHeaders_eq (h : Within (SecretAt isSensitive) value other) :
    scrubHeaders value = scrubHeaders other := by
  refine h.inFields_eq fun key value other hsecret => ?_
  cases hname : isSensitive key with
  | true => rfl
  | false => rw [hsecret hname]

/-- What is under a name that the filter does not know is left. -/
theorem scrubHeaders_eq_iff (h : Within relation value other) (hdict : value.Wellformed isNumber) :
    scrubHeaders value = scrubHeaders other ↔
      ∀ name, isSensitive name = false → entry name value = entry name other := by
  cases h with
  | same => exact ⟨fun _ _ _ => rfl, fun _ => rfl⟩
  | fields hrelated =>
      unfold scrubHeaders
      rw [inFields_eq_iff, hrelated.iff_lookup hdict.nodup]
      constructor
      · intro hall name hname
        change List.lookup _ _ = List.lookup _ _
        rcases hrelated.lookup name with ⟨hnone, hnone'⟩ | ⟨found, found', hfound, hfound', -⟩
        · rw [hnone, hnone']
        · have hsame := hall name found found' hfound hfound'
          rw [hname] at hsame
          rw [hfound, hfound']
          exact congrArg some hsame
      · intro hall name found found' hfound hfound'
        cases hname : isSensitive name with
        | true => rfl
        | false =>
            have hsame : List.lookup _ _ = List.lookup _ _ := hall name hname
            rw [hfound, hfound'] at hsame
            exact Option.some.inj hsame

/-! ### The request -/

/-- What becomes of each entry of the request. -/
def scrubEntry (key : String) (value : Json) : Json :=
  if key = "headers" ∨ key = "cookies" ∨ key = "env" then scrubHeaders value
  else if key = "data" then redacted
  else value

theorem scrubRequest_eq : scrubRequest = inFields (mapValues scrubEntry) := by
  unfold scrubRequest update
  congr 1
  funext request
  dsimp only
  rw [mapValues_mapValues, mapValues_mapValues, mapValues_mapValues]
  congr 1
  funext key value
  unfold scrubEntry
  by_cases hheaders : key = "headers"
  · subst hheaders
    rfl
  by_cases hcookies : key = "cookies"
  · subst hcookies
    rfl
  by_cases hdata : key = "data"
  · subst hdata
    rfl
  simp only [hheaders, hcookies, hdata, if_false, false_or]

theorem isSensitive_envNames : ∀ name ∈ envNames, isSensitive name = false := by decide +kernel

/-- The filter makes the same of two places if they agree in what it does not know. -/
theorem scrubHeaders_at_iff (place : String) {inPlace : String → Json → Json → Prop}
    (h : Related relation fields others)
    (hplace : ∀ value other, relation place value other → Within inPlace value other)
    (hdict : (Json.object fields).Wellformed isNumber) :
    (∀ value other, fields.lookup place = some value → others.lookup place = some other →
      scrubHeaders value = scrubHeaders other) ↔
      ∀ name, isSensitive name = false →
        (fields.lookup place).bind (entry name) = (others.lookup place).bind (entry name) := by
  rcases h.lookup place with ⟨hnone, hnone'⟩ | ⟨value, other, hvalue, hother, hrelated⟩
  · rw [hnone, hnone']
    exact ⟨fun _ _ _ => rfl, fun _ _ _ h => by cases h⟩
  · have hiff := scrubHeaders_eq_iff (hplace _ _ hrelated) (hdict.lookup hvalue)
    rw [hvalue, hother]
    constructor
    · intro hall
      exact hiff.mp (hall value other rfl rfl)
    · rintro hall _ _ ⟨⟩ ⟨⟩
      exact hiff.mpr hall

theorem scrubRequest_eq_iff (h : Within SecretInRequest value other)
    (hdict : value.Wellformed isNumber) : scrubRequest value = scrubRequest other ↔
      (∀ name, isSensitive name = false →
        (entry "cookies" value).bind (entry name) = (entry "cookies" other).bind (entry name)) ∧
      ∀ name ∈ envNames,
        (entry "env" value).bind (entry name) = (entry "env" other).bind (entry name) := by
  cases h with
  | same => exact ⟨fun _ => ⟨fun _ _ => rfl, fun _ _ => rfl⟩, fun _ => rfl⟩
  | @fields fields others hrelated =>
      have hcookies := scrubHeaders_at_iff "cookies" hrelated (fun _ _ h => h) hdict
      have henv := scrubHeaders_at_iff "env" hrelated (fun _ _ h => h) hdict
      rw [scrubRequest_eq, inFields_eq_iff, hrelated.iff_lookup hdict.nodup]
      constructor
      · intro hall
        exact ⟨hcookies.mp (hall "cookies"), fun name hname =>
          henv.mp (hall "env") name (isSensitive_envNames name hname)⟩
      · rintro ⟨hcookie, hentry⟩ key value other hvalue hother
        have hsecret : SecretInRequest key value other := hrelated.of_lookup hvalue hother
        obtain rfl | hheaders := eq_or_ne key "headers"
        · exact scrubHeaders_eq hsecret
        obtain rfl | hcookies := eq_or_ne key "cookies"
        · exact hcookies.mpr hcookie _ _ hvalue hother
        obtain rfl | hdata := eq_or_ne key "data"
        · rfl
        obtain rfl | henv := eq_or_ne key "env"
        · refine henv.mpr (fun name _ => ?_) _ _ hvalue hother
          -- an entry that is no secret is the same in both
          by_cases hname : name ∈ envNames
          · exact hentry name hname
          · have hwithin : Within (SecretAt envNames.contains) value other := hsecret
            rw [hvalue, hother]
            exact hwithin.entry_eq (Bool.eq_false_iff.mpr fun hmem =>
              hname (List.contains_iff_mem.mp hmem))
        unfold SecretInRequest at hsecret
        simp only [hheaders, hcookies, hdata, henv, if_false] at hsecret
        rw [hsecret]

/-! ### The breadcrumbs -/

theorem scrubBreadcrumb_eq (h : Within SecretInBreadcrumb value other) :
    scrubBreadcrumb value = scrubBreadcrumb other := by
  refine h.inFields_eq fun key value other hsecret => ?_
  unfold SecretInBreadcrumb at hsecret
  by_cases hkey : key = "data"
  · rw [if_pos hkey] at hsecret ⊢
    rw [if_pos hkey]
    exact scrubHeaders_eq hsecret
  · rw [if_neg hkey] at hsecret
    rw [hsecret]

theorem map_scrubBreadcrumb_eq {items others : List Json}
    (h : List.Forall₂ (Within SecretInBreadcrumb) items others) :
    items.map scrubBreadcrumb = others.map scrubBreadcrumb := by
  induction h with
  | nil => rfl
  | cons hitem _ ih => rw [List.map_cons, List.map_cons, scrubBreadcrumb_eq hitem, ih]

theorem scrubBreadcrumbs_eq (h : Within SecretInBreadcrumbs value other) :
    scrubBreadcrumbs value = scrubBreadcrumbs other := by
  refine h.inFields_eq fun key value other hsecret => ?_
  unfold SecretInBreadcrumbs at hsecret
  by_cases hkey : key = "values"
  · rw [if_pos hkey] at hsecret ⊢
    rw [if_pos hkey]
    cases hsecret with
    | same => rfl
    | items hitems => exact congrArg Json.array (map_scrubBreadcrumb_eq hitems)
  · rw [if_neg hkey] at hsecret
    rw [hsecret]

/-! ### The event -/

theorem DifferInSecrets.lookup_eq (h : DifferInSecrets event report) (key : String)
    (hrequest : key ≠ "request") (hbreadcrumbs : key ≠ "breadcrumbs") :
    event.lookup key = report.lookup key := by
  rcases h.lookup key with ⟨hnone, hnone'⟩ | ⟨found, found', hfound, hfound', hsecret⟩
  · rw [hnone, hnone']
  · unfold SecretInEvent at hsecret
    rw [if_neg hrequest, if_neg hbreadcrumbs] at hsecret
    rw [hfound, hfound', hsecret]

theorem DifferInSecrets.isNoise_eq (h : DifferInSecrets event report) :
    isNoise event = isNoise report := by
  unfold isNoise logMessage
  rw [h.lookup_eq "logentry" (by decide) (by decide), h.lookup_eq "message" (by decide) (by decide)]

/-- The loop over the breadcrumbs raises for both events, or for none. -/
theorem DifferInSecrets.crumbs_alike (h : DifferInSecrets event report) :
    (crumbValues event).map (fun _ => ()) = (crumbValues report).map fun _ => () := by
  unfold crumbValues
  rcases h.lookup "breadcrumbs" with ⟨hnone, hnone'⟩ | ⟨found, found', hfound, hfound', hsecret⟩
  · rw [hnone, hnone']
  · rw [hfound, hfound']
    have hwithin : Within SecretInBreadcrumbs found found' := hsecret
    cases hwithin with
    | same => rfl
    | @fields fields others hrelated =>
        change Except.map _ (iterate (((fields.lookup "values").filter _).getD _)) =
          Except.map _ (iterate (((others.lookup "values").filter _).getD _))
        rcases hrelated.lookup "values" with
          ⟨hvalues, hvalues'⟩ | ⟨values, values', hvalues, hvalues', hlisted⟩
        · rw [hvalues, hvalues']
        · rw [hvalues, hvalues']
          have hlisted : Listed (Within SecretInBreadcrumb) values values' := hlisted
          cases hlisted with
          | same => rfl
          | items hitems => cases hitems <;> rfl

theorem scrubEvent_eq (event : Fields) : scrubEvent event =
    if isNoise event then .ok none
    else ((crumbValues event).map fun _ => ()).map fun _ => some
      (update "breadcrumbs" scrubBreadcrumbs (update "request" scrubRequest event)) := by
  unfold scrubEvent
  split
  · rfl
  · cases crumbValues event <;> rfl

/-- What becomes of each entry of an event. -/
def scrubField (key : String) (value : Json) : Json :=
  if key = "request" then scrubRequest value
  else if key = "breadcrumbs" then scrubBreadcrumbs value
  else value

theorem update_update_eq (event : Fields) :
    update "breadcrumbs" scrubBreadcrumbs (update "request" scrubRequest event) =
      mapValues scrubField event := by
  unfold update
  rw [mapValues_mapValues]
  congr 1
  funext key value
  unfold scrubField
  obtain rfl | hrequest := eq_or_ne key "request"
  · rfl
  · rw [if_neg hrequest, if_neg hrequest]

/-- What is left of two events is the same if their requests become the same. -/
theorem DifferInSecrets.fields_eq_iff (h : DifferInSecrets event report)
    (hdict : (Json.object event).Wellformed isNumber) :
    mapValues scrubField event = mapValues scrubField report ↔
      ∀ value other, event.lookup "request" = some value → report.lookup "request" = some other →
        scrubRequest value = scrubRequest other := by
  rw [mapValues_eq_iff, Related.iff_lookup h hdict.nodup]
  constructor
  · intro hall value other hvalue hother
    exact hall "request" value other hvalue hother
  · intro hrequest key value other hvalue hother
    have hsecret : SecretInEvent key value other := Related.of_lookup h hvalue hother
    obtain rfl | hkey := eq_or_ne key "request"
    · exact hrequest value other hvalue hother
    obtain rfl | hkey' := eq_or_ne key "breadcrumbs"
    · exact scrubBreadcrumbs_eq hsecret
    unfold SecretInEvent at hsecret
    rw [if_neg hkey, if_neg hkey'] at hsecret
    rw [hsecret]

theorem DifferInSecrets.requests_eq_iff (h : DifferInSecrets event report)
    (hdict : (Json.object event).Wellformed isNumber) :
    (∀ value other, event.lookup "request" = some value → report.lookup "request" = some other →
        scrubRequest value = scrubRequest other) ↔
      (∀ name, isSensitive name = false → cookie event name = cookie report name) ∧
        ∀ name ∈ envNames, envEntry event name = envEntry report name := by
  unfold cookie envEntry
  rcases h.lookup "request" with ⟨hnone, hnone'⟩ | ⟨value, other, hvalue, hother, hsecret⟩
  · rw [hnone, hnone']
    exact ⟨fun _ => ⟨fun _ _ => rfl, fun _ _ => rfl⟩, fun _ _ _ h => by cases h⟩
  · have hiff := scrubRequest_eq_iff hsecret (hdict.lookup hvalue)
    rw [hvalue, hother]
    constructor
    · intro hall
      exact hiff.mp (hall value other rfl rfl)
    · rintro hall _ _ ⟨⟩ ⟨⟩
      exact hiff.mpr hall

/-- **What the filter knows by name** is all that it hides of cookies and the environment. -/
theorem scrubEvent_eq_iff (hdict : (Json.object event).Wellformed fun _ => True)
    (hdiffer : DifferInSecrets event report) : scrubEvent event = scrubEvent report ↔
      isNoise event = true ∨ (∃ error, crumbValues event = .error error) ∨
        (∀ name, isSensitive name = false → cookie event name = cookie report name) ∧
          ∀ name ∈ envNames, envEntry event name = envEntry report name := by
  rw [← hdiffer.requests_eq_iff hdict, ← hdiffer.fields_eq_iff hdict, scrubEvent_eq, scrubEvent_eq,
    ← hdiffer.isNoise_eq, ← hdiffer.crumbs_alike, update_update_eq, update_update_eq]
  cases hnoise : isNoise event with
  | true => simp
  | false =>
      cases hvalues : crumbValues event with
      | error error => simp [Except.map]
      | ok values => simp [Except.map]

/-! ### A session token in a report -/

/-- An event about a request of a user who is signed in. -/
def signedIn (authorization token : String) : Fields :=
  [("request", .object [("headers", .object [("Authorization", .string authorization)]),
    ("cookies", .object [("codex_jwt", .string token)])])]

theorem wellformed_signedIn (authorization token : String) :
    (Json.object (signedIn authorization token)).Wellformed fun _ => True := by
  have hheaders : (Json.object [("Authorization", .string authorization)]).Wellformed
      fun _ => True := .object (by simp) (by simpa using .string authorization)
  have hcookies : (Json.object [("codex_jwt", .string token)]).Wellformed fun _ => True :=
    .object (by simp) (by simpa using .string token)
  refine .object (by simp [signedIn]) ?_
  simp only [signedIn, List.mem_singleton, forall_eq]
  exact .object (by simp) (by simp [hheaders, hcookies])

theorem signedIn_differ (authorization authorization' token token' : String) :
    DifferInSecrets (signedIn authorization token) (signedIn authorization' token') := by
  have hheaders : Within (SecretAt isSensitive) (.object [("Authorization", .string authorization)])
      (.object [("Authorization", .string authorization')]) := by
    have hsensitive : isSensitive "Authorization" = true := by decide +kernel
    refine .fields (.cons ⟨rfl, fun hname => ?_⟩ .nil)
    cases hsensitive.symm.trans hname
  have hcookies : Within (SecretAt fun _ => true) (.object [("codex_jwt", .string token)])
      (.object [("codex_jwt", .string token')]) :=
    .fields (.cons ⟨rfl, fun hname => by cases hname⟩ .nil)
  exact .cons ⟨rfl, .fields (.cons ⟨rfl, hheaders⟩ (.cons ⟨rfl, hcookies⟩ .nil))⟩ .nil

/-- The same session with another password is reported alike. -/
theorem signedIn_alike : scrubEvent (signedIn "Basic b25l" "token") =
    scrubEvent (signedIn "Basic dHdv" "token") :=
  (scrubEvent_eq_iff (wellformed_signedIn _ _) (signedIn_differ _ _ _ _)).mpr
    (.inr (.inr ⟨fun _ _ => rfl, fun _ _ => rfl⟩))

/-- **The session cookie is reported**: the filter looks for names of headers among the cookies. -/
theorem session_cookie_reported : ¬∀ event report : Fields,
    (Json.object event).Wellformed (fun _ => True) → DifferInSecrets event report →
      scrubEvent event = scrubEvent report := by
  intro hall
  have hsame := hall _ _ (wellformed_signedIn "Basic b25l" "one")
    (signedIn_differ _ "Basic b25l" _ "two")
  have hcookie := congrArg (fun outcome => outcome.toOption.join.bind fun event =>
    (cookie event "codex_jwt").bind Json.string?) hsame
  revert hcookie
  decide +kernel

end CodexServer.Scrub
