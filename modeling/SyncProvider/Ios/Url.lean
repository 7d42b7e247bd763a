import SyncProvider.Ios.Cycle
import SyncProvider.Ios.Storage
import SyncProvider.Js.Validation

/-!
# iOS: the URLs that are accepted and those that are dispatched

A URL passes the pattern of the JS facade, crosses the bridge, passes `translate`, and
is looked at once more by `dispatchOne`. The first two ignore the letter case of the
scheme, the last one does not.

`URL(string:)` is a parameter. Of it only the scheme matters: the text before the first
colon, in its letter case.

Results:
1. `hasPrefix_scheme_iff` : what `dispatchOne` sees of a URL that `translate` accepts.
2. `accepted_dispatched_iff` : which accepted URLs are dispatched.
3. `uppercase_scheme_fails` : a run in which one is not.
-/

namespace SyncProvider

/-! ## The bridge -/

namespace Js

def isHighSurrogate (u : UInt16) : Bool := 0xD800 ≤ u && u ≤ 0xDBFF

def isLowSurrogate (u : UInt16) : Bool := 0xDC00 ≤ u && u ≤ 0xDFFF

/-- A unit on its own. A surrogate is replaced. -/
def charOfUnit (u : UInt16) : Char :=
  if isHighSurrogate u || isLowSurrogate u then Char.ofNat 0xFFFD else Char.ofNat u.toNat

/-- A pair of surrogates is one character. -/
def decoded : JsString → List Char
  | [] => []
  | [u] => [charOfUnit u]
  | u :: v :: s =>
    if isHighSurrogate u && isLowSurrogate v then
      Char.ofNat (0x10000 + (u.toNat - 0xD800) * 0x400 + (v.toNat - 0xDC00)) :: decoded s
    else charOfUnit u :: decoded (v :: s)

/-- The string as the native side gets it. -/
def bridged (s : JsString) : String := String.ofList (decoded s)

theorem toNat_ofNat {n : ℕ} (h : n < 0x80) : (Char.ofNat n).toNat = n := by
  have hall : ∀ n < 0x80, (Char.ofNat n).toNat = n := by decide
  exact hall n h

theorem decoded_cons {u : UInt16} (s : JsString) (h : u.toNat < 0x80) :
    decoded (u :: s) = Char.ofNat u.toNat :: decoded s := by
  have hhigh : isHighSurrogate u = false := by
    simp [isHighSurrogate, UInt16.le_iff_toNat_le]
    omega
  have hlow : isLowSurrogate u = false := by
    simp [isLowSurrogate, UInt16.le_iff_toNat_le]
    omega
  have hchar : charOfUnit u = Char.ofNat u.toNat := by simp [charOfUnit, hhigh, hlow]
  cases s with
  | nil => simp [decoded, hchar]
  | cons v s => simp [decoded, hhigh, hchar]

theorem toNat_lt_of_matchesChar {c : Char} {u : UInt16} (hc : c.toNat < 0x80)
    (h : matchesChar c u = true) : u.toNat < 0x80 := by
  simp only [matchesChar, Bool.or_eq_true, beq_iff_eq, Bool.and_eq_true] at h
  omega

/-- A text that starts with a literal decodes to as many characters. -/
theorem decoded_of_dropLiteral {cs : List Char} {s rest : JsString}
    (hcs : ∀ c ∈ cs, c.toNat < 0x80) (h : dropLiteral cs s = some rest) :
    decoded s = (s.take cs.length).map (fun u => Char.ofNat u.toNat) ++ decoded rest ∧
      (s.take cs.length).length = cs.length ∧ ∀ u ∈ s.take cs.length, u.toNat < 0x80 := by
  induction cs generalizing s with
  | nil =>
    cases h
    simp
  | cons c cs ih =>
    cases s with
    | nil => cases h
    | cons u s =>
      simp only [dropLiteral] at h
      split at h
      · rename_i hmatch
        have hu := toNat_lt_of_matchesChar (hcs c List.mem_cons_self) hmatch
        obtain ⟨hdecoded, hlength, hunits⟩ := ih (fun c hc => hcs c (List.mem_cons_of_mem _ hc)) h
        refine ⟨?_, ?_, ?_⟩
        · rw [decoded_cons s hu, hdecoded]
          simp
        · simp only [List.length_cons, List.take_succ_cons, hlength]
        · intro v hv
          rw [List.length_cons, List.take_succ_cons] at hv
          rcases List.mem_cons.mp hv with rfl | hv
          · exact hu
          · exact hunits v hv
      · cases h

end Js

namespace Ios

/-! ## The code -/

/-- What is read of a parsed URL. -/
structure URL where
  scheme : Option String
  host : Option String
  deriving DecidableEq

structure SyncItemInput where
  method : HttpMethod
  url : String
  headers : Option StringMap
  body : Option String
  contentType : Option String
  priority : Option SyncPriority
  metadata : Option StringMap
  deriving DecidableEq

def SyncProviderError.invalidPayload (reason : String) : SyncProviderError where
  code := .INVALID_PAYLOAD
  message := "Invalid payload: " ++ reason

def SyncProviderError.invalidURL (value : String) : SyncProviderError where
  code := .INVALID_URL
  message := "Invalid URL: " ++ value

/-- The guard of `translate`. -/
def URL.isHttp (url : URL) : Bool :=
  (url.scheme.map String.toLower).any (fun scheme => scheme == "http" || scheme == "https") &&
    url.host.isSome

/-- `translate(input:)`. `parse` is `URL(string:)`. -/
def SyncItemInput.translate (parse : String → Option URL) (input : SyncItemInput) :
    Except SyncProviderError SyncItemInputData :=
  if input.url.isEmpty then .error (.invalidPayload "url is empty")
  else if (parse input.url).any URL.isHttp then
    .ok
      { method := input.method.name
        url := input.url
        headers := input.headers
        body := input.body
        contentType := input.contentType
        priority := (input.priority.map SyncPriority.name).getD "NORMAL"
        metadata := input.metadata }
  else .error (.invalidURL input.url)

/-- The scheme that `dispatchOne` reads. -/
def schemeOf (parse : String → Option URL) (url : String) : Option String :=
  (parse url).bind URL.scheme

/-- The scheme of a URL is its text before the first colon, letter case and all. -/
structure KeepsScheme (parse : String → Option URL) : Prop where
  scheme_eq : ∀ url u scheme, parse url = some u → u.scheme = some scheme →
    scheme.toList = url.toList.takeWhile (· != ':')

/-! ## 1. The three checks -/

theorem URL.isHttp_eq_true {u : URL} (h : u.isHttp = true) :
    ∃ scheme, u.scheme = some scheme ∧ (scheme.toLower = "http" ∨ scheme.toLower = "https") := by
  cases hscheme : u.scheme with
  | none => simp [URL.isHttp, hscheme] at h
  | some scheme =>
    simp only [URL.isHttp, hscheme, Option.map_some, Option.any_some, Bool.and_eq_true,
      Bool.or_eq_true, beq_iff_eq] at h
    exact ⟨scheme, rfl, h.1⟩

theorem SyncItemInput.translate_ok {parse : String → Option URL} {input : SyncItemInput}
    {data : SyncItemInputData} (h : input.translate parse = .ok data) :
    data.url = input.url ∧ ∃ u, parse input.url = some u ∧ u.isHttp = true := by
  unfold SyncItemInput.translate at h
  split at h
  · cases h
  · cases hparse : parse input.url with
    | none => simp [hparse] at h
    | some u =>
      simp only [hparse, Option.any_some] at h
      split at h
      · rename_i hhttp
        cases h
        exact ⟨rfl, u, rfl, hhttp⟩
      · cases h

/-- Of a scheme that `translate` accepts, `dispatchOne` reads the first four letters of
the URL. -/
theorem hasPrefix_scheme_iff {parse : String → Option URL} (hparse : KeepsScheme parse)
    {url : String} {u : URL} (hu : parse url = some u) (hhttp : u.isHttp = true) :
    ((schemeOf parse url).map fun s => hasPrefix s "http") = some true ↔
      url.toList.take 4 = "http".toList := by
  obtain ⟨scheme, hscheme, hlower⟩ := URL.isHttp_eq_true hhttp
  have hprefix : scheme.toList <+: url.toList := by
    rw [hparse.scheme_eq url u scheme hu hscheme]
    exact List.takeWhile_prefix _
  have hlength : 4 ≤ scheme.toList.length := by
    have hmap : (scheme.toLower).toList.length = scheme.toList.length := by
      change (scheme.map Char.toLower).toList.length = scheme.toList.length
      simp
    rw [← hmap]
    rcases hlower with h | h <;> rw [h] <;> decide
  have hseen : (schemeOf parse url).map (fun s => hasPrefix s "http") =
      some (hasPrefix scheme "http") := by simp [schemeOf, hu, hscheme]
  rw [hseen, Option.some_inj, hasPrefix, List.isPrefixOf_iff_prefix]
  constructor
  · intro h
    exact (List.prefix_iff_eq_take.mp (h.trans hprefix)).symm
  · intro h
    have htake : "http".toList <+: url.toList := List.prefix_iff_eq_take.mpr h.symm
    exact List.prefix_of_prefix_length_le htake hprefix hlength

/-- A URL with the pattern of the facade starts, on the native side, with the four
letters it starts with in JS. -/
theorem take_bridged_iff {js : Js.JsString} (hjs : Js.absoluteUrl js = true) :
    (Js.bridged js).toList.take 4 = "http".toList ↔ js.take 4 = Js.utf16 "http" := by
  have hascii : ∀ c ∈ "http".toList, c.toNat < 0x80 := by
    have hall : "http".toList.all (fun c => decide (c.toNat < 0x80)) = true := by decide +kernel
    exact fun c hc => of_decide_eq_true (List.all_eq_true.mp hall c hc)
  unfold Js.absoluteUrl at hjs
  split at hjs
  · rename_i rest hdrop
    obtain ⟨hdecoded, hlength, hunits⟩ := Js.decoded_of_dropLiteral hascii hdrop
    have hfour : "http".toList.length = 4 := rfl
    rw [hfour] at hdecoded hlength hunits
    have htake : (Js.bridged js).toList.take 4 =
        (js.take 4).map fun u => Char.ofNat u.toNat := by
      rw [Js.bridged, String.toList_ofList, hdecoded, List.take_left' (by simpa using hlength)]
    have hutf16 : "http".toList = (Js.utf16 "http").map fun u => Char.ofNat u.toNat := by decide
    rw [htake, hutf16]
    constructor
    · intro h
      have hback := congrArg (List.map fun c : Char => c.toNat.toUInt16) h
      rw [List.map_map, List.map_map] at hback
      have hunit : ∀ u ∈ js.take 4, (Char.ofNat u.toNat).toNat.toUInt16 = u := by
        intro u hu
        rw [Js.toNat_ofNat (hunits u hu)]
        exact UInt16.ofNat_toNat
      calc
        js.take 4 = (js.take 4).map fun u => (Char.ofNat u.toNat).toNat.toUInt16 :=
          ((List.map_congr_left hunit).trans (List.map_id _)).symm
        _ = (Js.utf16 "http").map fun u => (Char.ofNat u.toNat).toNat.toUInt16 := hback
        _ = Js.utf16 "http" := by decide
    · intro h
      rw [h]
  · cases hjs

/-- An item whose URL is rejected fails for good. -/
theorem invalidUrl_fails (config sentWith : DispatcherConfig) (item : StoredSyncItem)
    (sample : ℚ) : (recordFailureOutcome config sentWith item (invalidUrl item) sample).write =
      .markFailed .INVALID_URL := by
  have hstale : isStaleCredentialRejection (invalidUrl item) sentWith = false := by
    simp [isStaleCredentialRejection, invalidUrl]
  have hretry : decideRetry config.retryPolicy (invalidUrl item) = false := by
    simp [decideRetry, invalidUrl]
  simp only [recordFailureOutcome, hstale, hretry, Bool.false_eq_true, if_false, Bool.false_and]
  rfl

/-! ## 2. Which accepted URLs are dispatched -/

/-- Of a URL that the facade and `translate` accept: its item is not rejected by
`dispatchOne` exactly when the first four letters of the URL are in lower case. If it is
rejected, it fails for good, for any policy and sample. -/
theorem accepted_dispatched_iff {parse : String → Option URL} (hparse : KeepsScheme parse)
    {js : Js.JsString} (hjs : Js.absoluteUrl js = true) {input : SyncItemInput}
    (hurl : input.url = Js.bridged js) {data : SyncItemInputData}
    (haccepted : input.translate parse = .ok data) {item : StoredSyncItem}
    (hitem : item.url = data.url) {before : Option Int} {rest : List StoredSyncItem} {c : Cycle}
    (hphase : c.phase = .claimed item before rest) (config : DispatcherConfig) (paused : Bool)
    (w : World) :
    (c.step (schemeOf parse) config paused w .prepare ≠
        some (w, { c with phase := .answered item rest config (invalidUrl item) }) ↔
      js.take 4 = Js.utf16 "http") ∧
    ∀ config' sample,
      (recordFailureOutcome config' config item (invalidUrl item) sample).write =
        .markFailed .INVALID_URL := by
  refine ⟨?_, fun config' sample => invalidUrl_fails config' config item sample⟩
  obtain ⟨hdata, u, hu, hhttp⟩ := SyncItemInput.translate_ok haccepted
  have hitemUrl : item.url = Js.bridged js := hitem.trans (hdata.trans hurl)
  rw [hurl] at hu
  have hseen := (hasPrefix_scheme_iff hparse hu hhttp).trans (take_bridged_iff hjs)
  rw [← hitemUrl] at hseen
  rw [← hseen]
  simp only [Cycle.step, hphase]
  constructor
  · intro hnot
    by_contra hprefix
    rw [if_neg hprefix] at hnot
    exact hnot rfl
  · intro hprefix hrejected
    rw [if_pos hprefix] at hrejected
    cases hrejected

section Sample

/-- A parser of `scheme://host/...`. -/
def parseUrl (url : String) : Option URL :=
  match url.toList.dropWhile (· != ':') with
  | ':' :: '/' :: '/' :: rest =>
    some ⟨some (String.ofList (url.toList.takeWhile (· != ':'))),
      some (String.ofList (rest.takeWhile (· != '/')))⟩
  | _ => none

theorem parseUrl_keepsScheme : KeepsScheme parseUrl := by
  refine ⟨fun url u scheme hu hscheme => ?_⟩
  unfold parseUrl at hu
  split at hu
  · cases hu
    cases hscheme
    exact String.toList_ofList
  · cases hu

def getInput (url : String) : SyncItemInput := ⟨.GET, url, none, none, none, none, none⟩

def getData (url : String) : SyncItemInputData := ⟨"GET", url, none, none, none, "NORMAL", none⟩

def getItem (url : String) : StoredSyncItem := SyncQueueStorage.build (getData url) "A" 0

/-- A cycle that has claimed the only item of the store, never tried before. -/
def claimedUrl (url : String) : World × Cycle :=
  (⟨⟨[getItem url], by simp⟩, ["A"], [], true, none, none, [], [], [], []⟩,
    { Cycle.start 0 1 with phase := .claimed (getItem url) (some 0) [] })

theorem lowercase_scheme_dispatched :
    Cycle.step (schemeOf parseUrl) sampleConfig false
        (claimedUrl "https://api.example.com/x").1 (claimedUrl "https://api.example.com/x").2
        .prepare ≠
      some ((claimedUrl "https://api.example.com/x").1,
        { (claimedUrl "https://api.example.com/x").2 with
          phase := .answered (getItem "https://api.example.com/x") [] sampleConfig
            (invalidUrl (getItem "https://api.example.com/x")) }) := by
  have hjs : Js.absoluteUrl (Js.utf16 "https://api.example.com/x") = true := by decide +kernel
  have hbridged : Js.bridged (Js.utf16 "https://api.example.com/x") =
      "https://api.example.com/x" := by decide +kernel
  have haccepted : (getInput "https://api.example.com/x").translate parseUrl =
      .ok (getData "https://api.example.com/x") := by
    have hhttp : (parseUrl "https://api.example.com/x").any URL.isHttp = true := by
      decide +kernel
    simp only [SyncItemInput.translate, getInput, hhttp]
    rfl
  exact (accepted_dispatched_iff parseUrl_keepsScheme hjs hbridged.symm haccepted rfl rfl
    sampleConfig false _).1.mpr (by decide +kernel)

/-- Accepted by the facade and by `translate`, and failed for good at the first
dispatch. -/
theorem uppercase_scheme_fails :
    Js.absoluteUrl (Js.utf16 "HTTPS://api.example.com/x") = true ∧
    Js.bridged (Js.utf16 "HTTPS://api.example.com/x") = "HTTPS://api.example.com/x" ∧
    (getInput "HTTPS://api.example.com/x").translate parseUrl =
      .ok (getData "HTTPS://api.example.com/x") ∧
    (StepSystem.exec (fun s => Cycle.step (schemeOf parseUrl) sampleConfig false s.1 s.2)
        (claimedUrl "HTTPS://api.example.com/x") [.prepare, .settle 0, .write 1]).map
      (fun s => s.1.store.rows.map fun row => (row.status, row.lastErrorCode)) =
      some [(.FAILED, some .INVALID_URL)] := by
  have hhttp : (parseUrl "HTTPS://api.example.com/x").any URL.isHttp = true := by
    decide +kernel
  refine ⟨by decide +kernel, by decide +kernel, ?_, by decide +kernel⟩
  simp only [SyncItemInput.translate, getInput, hhttp]
  rfl

end Sample

end Ios

end SyncProvider
