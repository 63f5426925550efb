import Sluicio.Configtransfer.Export

/-!
# Secrets in a bundle

The credentials of a state are the values of a channel's configuration outside the safe
list, the password in the setting `system.smtp`, and the key in `system.mfa_key`.
`OrgState.blankSecrets` blanks them, so that two states differ in credentials alone
exactly when they have one blanking.

The exporter redacts the channels and writes the settings out as they are: two states
that differ in credentials alone export one bundle exactly when the credentials kept in
their settings are the same.
-/

namespace Sluicio.Configtransfer

open Lib CellSettingRow

/-- A member with its value blanked when `p` picks its key. -/
def blankAt (p : String → Bool) (m : String × String) : String × String :=
  (m.1, if p m.1 then "" else m.2)

def JsonObject.blank (p : String → Bool) (o : JsonObject) : JsonObject where
  members := o.members.map (blankAt p)
  sorted := List.pairwise_map.2 o.sorted

def Json.blank (p : String → Bool) : Json → Json
  | .object o => .object (o.blank p)
  | .other text => .other text

/-- A configuration that is no object is a value outside the safe list as a whole. -/
def ChannelRow.blank (r : ChannelRow) : ChannelRow :=
  { r with config := match r.config with
    | .object o => .object (o.blank fun k => !channelSecretSafe r.kind k)
    | .other _ => .other "" }

/-- The member of a cell setting that holds a credential. -/
def secretMember (setting : String) : Option String :=
  if setting = "system.smtp" then some "password"
  else if setting = "system.mfa_key" then some "key"
  else none

def CellSettingRow.blank (r : CellSettingRow) : CellSettingRow :=
  { r with value := r.value.blank fun k => secretMember r.key = some k }

def OrgState.blankSecrets (st : OrgState) : OrgState :=
  { st with
    channels := st.channels.map ChannelRow.blank
    cellSettings := st.cellSettings.map blank }

/-- `v[k]`, of a value that is an object. -/
def Json.member (k : String) : Json → Option String
  | .object o => o.members.lookup k
  | .other _ => none

/-- The credential a cell setting holds, as its JSON text. -/
def CellSettingRow.secret (r : CellSettingRow) : Option String :=
  (secretMember r.key).bind r.value.member

/-- The credentials the cell's settings hold, setting by setting: the SMTP password and
the MFA key. -/
def OrgState.settingSecrets (st : OrgState) : List (Option String) :=
  st.cellSettings.map secret

/-! ## Settings -/

variable {p : String → Bool}

theorem map_blankAt_of_not {ms : List (String × String)} (h : ∀ m ∈ ms, p m.1 = false) :
    ms.map (blankAt p) = ms := by
  have hid : ∀ m ∈ ms, blankAt p m = id m := by
    intro m hm
    simp [blankAt, h m hm]
  rw [List.map_congr_left hid, List.map_id]

theorem members_eq_of_blank {k : String} (hp : ∀ k', p k' → k' = k)
    {ms ms' : List (String × String)} (hms : ms.Pairwise fun a b => a.1 < b.1)
    (hms' : ms'.Pairwise fun a b => a.1 < b.1) (hblank : ms.map (blankAt p) = ms'.map (blankAt p))
    (hlookup : ms.lookup k = ms'.lookup k) : ms = ms' := by
  have hother : ∀ {n : String × String}, k < n.1 → p n.1 = false := by
    intro n hn
    by_contra hpn
    exact hn.ne' (hp n.1 (by simpa using hpn))
  induction ms generalizing ms' with
  | nil => exact (List.map_eq_nil_iff.1 hblank.symm).symm
  | cons m ms ih =>
    cases ms' with
    | nil => simp at hblank
    | cons m' ms' =>
      obtain ⟨a, v⟩ := m
      obtain ⟨a', v'⟩ := m'
      rw [List.pairwise_cons] at hms hms'
      simp only [List.map_cons, List.cons.injEq, blankAt, Prod.mk.injEq] at hblank
      obtain ⟨⟨rfl, hval⟩, htail⟩ := hblank
      by_cases ha : k = a
      · -- The blanked member stands here: what follows it is as it was.
        subst ha
        have hv : v = v' := by simpa using hlookup
        rw [map_blankAt_of_not fun n hn => hother (hms.1 n hn),
          map_blankAt_of_not fun n hn => hother (hms'.1 n hn)] at htail
        rw [hv, htail]
      have hpa : p a = false := by
        by_contra hpa
        exact ha (hp a (by simpa using hpa)).symm
      have hv : v = v' := by simpa [hpa] using hval
      have hne : (k == a) = false := by simpa using ha
      have hrest : ms.lookup k = ms'.lookup k := by
        simpa [List.lookup_cons, hne] using hlookup
      rw [hv, ih hms.2 hms'.2 htail hrest]

theorem Json.eq_of_blank {k : String} (hp : ∀ k', p k' → k' = k) {v v' : Json}
    (hblank : v.blank p = v'.blank p) (hmember : v.member k = v'.member k) : v = v' := by
  cases v with
  | other text =>
    cases v' with
    | other text' => exact hblank
    | object o' => cases hblank
  | object o =>
    cases v' with
    | other text' => cases hblank
    | object o' =>
      have hmembers : o.members.map (blankAt p) = o'.members.map (blankAt p) :=
        congrArg JsonObject.members (Json.object.inj hblank)
      rw [JsonObject.ext (members_eq_of_blank hp o.sorted o'.sorted hmembers hmember)]

theorem Json.blank_of_not (hp : ∀ k, p k = false) (v : Json) : v.blank p = v := by
  cases v with
  | other text => rfl
  | object o =>
    have hmembers : o.members.map (blankAt p) = o.members :=
      map_blankAt_of_not fun m _ => hp m.1
    exact congrArg Json.object (JsonObject.ext hmembers)

theorem CellSettingRow.eq_of_blank {r r' : CellSettingRow} (hblank : r.blank = r'.blank)
    (hsecret : r.secret = r'.secret) : r = r' := by
  obtain ⟨key, value, description⟩ := r
  obtain ⟨key', value', description'⟩ := r'
  obtain rfl : key = key' := congrArg CellSettingRow.key hblank
  obtain rfl : description = description' := congrArg CellSettingRow.description hblank
  have hvalue := congrArg CellSettingRow.value hblank
  simp only [blank] at hvalue
  cases hkey : secretMember key with
  | none =>
    have hnot : ∀ k, decide (secretMember key = some k) = false := by simp [hkey]
    rw [Json.blank_of_not hnot, Json.blank_of_not hnot] at hvalue
    rw [hvalue]
  | some k =>
    have honly : ∀ k', decide (secretMember key = some k') = true → k' = k := by
      simp [hkey, eq_comm]
    have hmember : value.member k = value'.member k := by
      simpa [secret, hkey] using hsecret
    rw [Json.eq_of_blank honly hvalue hmember]

theorem settings_eq_iff {rows rows' : List CellSettingRow}
    (hblank : rows.map blank = rows'.map blank) :
    rows = rows' ↔ rows.map secret = rows'.map secret := by
  constructor
  · rintro rfl
    rfl
  · intro hsecret
    induction rows generalizing rows' with
    | nil => simpa [eq_comm] using hblank
    | cons r rows ih =>
      cases rows' with
      | nil => simp at hblank
      | cons r' rows' =>
        rw [List.map_cons, List.map_cons, List.cons.injEq] at hblank hsecret
        rw [eq_of_blank hblank.1 hsecret.1, ih hblank.2 hsecret.2]

theorem exportCellSettings_eq_iff {st st' : OrgState}
    (hblank : st.blankSecrets = st'.blankSecrets) :
    exportCellSettings st = exportCellSettings st' ↔ st.cellSettings = st'.cellSettings := by
  constructor
  · intro h
    have hrows := congrArg OrgState.cellSettings hblank
    have hkeys : st.cellSettings.map CellSettingRow.key =
        st'.cellSettings.map CellSettingRow.key := by
      simpa [OrgState.blankSecrets, blank, Function.comp_def]
        using congrArg (List.map CellSettingRow.key) hrows
    have hinj : Function.Injective fun r : CellSettingRow =>
        CellSetting.mk r.key r.value r.description := by
      intro r r' hr
      cases r
      cases r'
      simpa using hr
    exact eq_of_orderBy_eq hkeys (List.map_injective_iff.2 hinj h)
  · intro h
    unfold exportCellSettings
    rw [h]

theorem safe_blank (kind : String) (o : JsonObject) :
    (o.blank fun k => !channelSecretSafe kind k).safe kind = o.safe kind := by
  apply JsonObject.ext
  have hkeys : ((fun m : String × String => channelSecretSafe kind m.1) ∘
      blankAt fun k => !channelSecretSafe kind k) = fun m => channelSecretSafe kind m.1 := rfl
  simp only [JsonObject.safe, JsonObject.blank, List.filter_map, hkeys]
  refine map_blankAt_of_not fun m hm => ?_
  simpa using (List.mem_filter.1 hm).2

theorem exportChannel_blank (r : ChannelRow) : exportChannel r.blank = exportChannel r := by
  obtain ⟨id, name, kind, config⟩ := r
  cases config with
  | other text => rfl
  | object o =>
    let o' := o.blank fun k => !channelSecretSafe kind k
    have hsafe : o'.safe kind = o.safe kind := safe_blank kind o
    have hlength : o'.members.length = o.members.length := List.length_map _
    show Channel.mk name kind (some (.object (o'.safe kind)))
      (decide ((o'.safe kind).members.length ≠ o'.members.length)) = _
    rw [hsafe, hlength]
    rfl

theorem exportChannels_blank (st : OrgState) :
    exportChannels st.blankSecrets = exportChannels st := by
  have hmap : exportChannel ∘ ChannelRow.blank = exportChannel := funext exportChannel_blank
  have hrows : orderBy ChannelRow.name (st.channels.map ChannelRow.blank) =
      (orderBy ChannelRow.name st.channels).map ChannelRow.blank :=
    (map_orderBy (fun _ => rfl) st.channels).symm
  unfold exportChannels
  rw [show st.blankSecrets.channels = st.channels.map ChannelRow.blank from rfl, hrows,
    List.map_map, hmap]

theorem channelName_blank (st : OrgState) : st.blankSecrets.channelName = st.channelName := by
  funext id
  have hid : ((fun r : ChannelRow => decide (r.id = id)) ∘ ChannelRow.blank) =
      fun r => decide (r.id = id) := rfl
  simp only [OrgState.channelName, OrgState.blankSecrets, List.find?_map, hid, Option.map_map]
  rfl

/-! ## The bundle -/

theorem exportSections_blank (st : OrgState) :
    exportSections st =
      { exportSections st.blankSecrets with cellSettings := exportCellSettings st } := by
  have hprofile : exportProfile st.blankSecrets = exportProfile st := by
    funext r
    simp only [exportProfile, channelName_blank]
    rfl
  have hprofiles : exportProfiles st.blankSecrets = exportProfiles st := by
    rw [exportProfiles, hprofile]
    rfl
  have hrule : exportRule st.blankSecrets = exportRule st := by
    funext r
    simp only [exportRule, channelName_blank]
    rfl
  have hrules : exportAlertRules st.blankSecrets = exportAlertRules st := by
    rw [exportAlertRules, hrule]
    rfl
  simp only [exportSections, exportChannels_blank, hprofiles, hrules]
  rfl

/-- **What a bundle says of credentials.**  Two states that differ in credentials alone
export the same bundle exactly when the credentials in their settings, the SMTP password
and the MFA key, are the same. -/
theorem exportBundle_eq_iff (st st' : OrgState) (hblank : st.blankSecrets = st'.blankSecrets)
    (appVersion : String) (now : Nat) :
    exportBundle st appVersion now = exportBundle st' appVersion now ↔
      st.settingSecrets = st'.settingSecrets := by
  have hsettings : st.cellSettings.map blank =
      st'.cellSettings.map blank := congrArg OrgState.cellSettings hblank
  rw [OrgState.settingSecrets, OrgState.settingSecrets, ← settings_eq_iff hsettings,
    ← exportCellSettings_eq_iff hblank]
  constructor
  · intro h
    exact congrArg (fun b => b.sections.cellSettings) h
  · intro h
    have hsource := congrArg (fun s : OrgState => Source.mk s.slug s.name) hblank
    change Source.mk st.slug st.name = ⟨st'.slug, st'.name⟩ at hsource
    have hsections : exportSections st = exportSections st' := by
      rw [exportSections_blank st, exportSections_blank st', hblank, h]
    rw [exportBundle, exportBundle, hsource, hsections]

private def mailing (token password : String) : OrgState where
  slug := "acme"
  name := "Acme"
  tags := []
  metadataFields := []
  schemas := []
  maps := []
  systemTypes := []
  systems := []
  serviceFacets := []
  facetMappings := []
  facetOverrides := []
  groups := []
  channels := [⟨1, "on-call", "webhook", .object ⟨[("url", token)], by simp⟩⟩]
  profiles := []
  integrations := []
  accessPolicies := []
  serviceMetadata := []
  serviceExtras := []
  serviceTags := []
  serviceSchemas := []
  messageViews := []
  templates := []
  alertRules := []
  dashboards := []
  services := []
  orgMembers := []
  users := []
  cellSettings := [⟨"system.smtp",
    .object ⟨[("host", "\"mx\""), ("password", password)],
      List.pairwise_pair.2 (show "host" < "password" by decide)⟩, ""⟩]

/-- Two hooks that differ in their address are told alike. -/
theorem exportBundle_eq_hooks :
    exportBundle (mailing "\"https://hook/a\"" "\"pw\"") "1.0" 0 =
      exportBundle (mailing "\"https://hook/b\"" "\"pw\"") "1.0" 0 :=
  (exportBundle_eq_iff _ _ (by decide +kernel) "1.0" 0).2 (by decide +kernel)

/-- The SMTP password enters the bundle: two states that differ in it alone do not
export the same. -/
theorem smtp_password_exported :
    ¬ ∀ st st' : OrgState, st.blankSecrets = st'.blankSecrets →
      ∀ (appVersion : String) (now : Nat),
        exportBundle st appVersion now = exportBundle st' appVersion now := by
  intro h
  have hequal := h (mailing "\"https://hook\"" "\"hunter2\"")
    (mailing "\"https://hook\"" "\"swordfish\"") (by decide +kernel) "1.0" 0
  exact absurd hequal (by decide +kernel)

end Sluicio.Configtransfer
