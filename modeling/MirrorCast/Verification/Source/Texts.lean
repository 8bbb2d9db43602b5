import MirrorCast.Verification.Net.Rendering
import MirrorCast.Verification.Source.Frames

/-! # The texts that the source writes -/

namespace MirrorCast

open Java ParsedMessage

/-- The capital letters of ASCII have the same small letters in all locales, but for the `I`. -/
def LowersAscii [CharData] : Prop :=
  ∀ s : JString, (∀ c ∈ s, c < 128 ∧ c ≠ 73) →
    CharData.toLowerCase s = s.map fun c => if 65 ≤ c ∧ c ≤ 90 then c + 32 else c

theorem lowersAscii_ascii : @LowersAscii CharData.ascii := fun _ _ => rfl

namespace WifiDisplaySource

/-- The platform writes its date and its release on one line. -/
structure Env.OneLine (env : Env) : Prop where
  date : 0x0d ∉ env.date
  release : 0x0d ∉ env.release

theorem oneLine_append {s t : JString} (hs : 0x0d ∉ s) (ht : 0x0d ∉ t) : 0x0d ∉ s ++ t := by
  simp [hs, ht]

theorem oneLine_decimal (n : ℤ) : 0x0d ∉ decimal n := by
  intro h
  have hbounds := mem_decimal h
  omega

/-! ## Headers -/

def dateHeader {env : Env} (henv : env.OneLine) : Header where
  name := jstr "Date"
  value := jstr " " ++ env.date
  name_visible := by decide
  value_oneLine := oneLine_append (by decide) henv.date

def serverHeader {env : Env} (henv : env.OneLine) : Header where
  name := jstr "Server"
  value := jstr " " ++ USER_AGENT env
  name_visible := by decide
  value_oneLine := by
    refine oneLine_append (by decide) (oneLine_append (oneLine_append ?_ henv.release) ?_)
    · decide
    · decide

def cseqHeader (cseq : ℤ) : Header where
  name := jstr "CSeq"
  value := jstr " " ++ decimal cseq
  name_visible := by decide
  value_oneLine := oneLine_append (by decide) (oneLine_decimal cseq)

def sessionHeader (playbackSessionID : ℤ) (parameters : JString) (h : 0x0d ∉ parameters) :
    Header where
  name := jstr "Session"
  value := jstr " " ++ decimal playbackSessionID ++ parameters
  name_visible := by decide
  value_oneLine := oneLine_append (oneLine_append (by decide) (oneLine_decimal _)) h

def timeout : JString := jstr ";timeout=" ++ decimal PLAYBACK_SESSION_TIMEOUT_SECS

theorem oneLine_timeout : 0x0d ∉ timeout := oneLine_append (by decide) (oneLine_decimal _)

/-- The headers that `appendCommonResponse` appends. -/
def commonHeaders {env : Env} (henv : env.OneLine) (cseq playbackSessionID : ℤ) : List Header :=
  [dateHeader henv, serverHeader henv] ++ (if 0 ≤ cseq then [cseqHeader cseq] else []) ++
    if 0 ≤ playbackSessionID then [sessionHeader playbackSessionID timeout oneLine_timeout] else []

/-- The headers of a body of parameters. -/
def bodyHeaders (content : JString) : List Header :=
  [⟨jstr "Content-Type", jstr " text/parameters", by decide, by decide⟩,
    ⟨jstr "Content-Length", jstr " " ++ decimal content.length, by decide,
      oneLine_append (by decide) (oneLine_decimal _)⟩]

theorem crlf_eq : crlf = lineEnd := by decide

theorem line_eq (header : Header) {name : String} (h : header.name = jstr name) :
    header.line = jstr (name ++ ":") ++ header.value := by
  have hcolon : jstr ":" = [0x3a] := by decide
  rw [Header.line, h, jstr_append, hcolon, List.append_assoc]
  rfl

theorem commonResponse_eq {env : Env} (henv : env.OneLine) (cseq playbackSessionID : ℤ) :
    commonResponse env cseq playbackSessionID =
      headerLines (commonHeaders henv cseq playbackSessionID) := by
  have hdate : jstr "Date: " = jstr ("Date" ++ ":") ++ jstr " " := by decide
  have hserver : jstr "Server: " = jstr ("Server" ++ ":") ++ jstr " " := by decide
  have hcseq : jstr "CSeq: " = jstr ("CSeq" ++ ":") ++ jstr " " := by decide
  have hsession : jstr "Session: " = jstr ("Session" ++ ":") ++ jstr " " := by decide
  have hcommon : headerLines [dateHeader henv, serverHeader henv] =
      jstr "Date: " ++ env.date ++ crlf ++ jstr "Server: " ++ USER_AGENT env ++ crlf := by
    rw [headerLines, List.flatMap_cons, List.flatMap_singleton, line_eq (dateHeader henv) rfl,
      line_eq (serverHeader henv) rfl, hdate, hserver, crlf_eq]
    simp [dateHeader, serverHeader]
  rw [commonResponse, commonHeaders, headerLines_append, headerLines_append, hcommon]
  congr 1
  · congr 1
    split
    · rw [headerLines, List.flatMap_singleton, line_eq (cseqHeader cseq) rfl, hcseq, crlf_eq]
      simp [cseqHeader]
    · rfl
  · split
    · rw [headerLines, List.flatMap_singleton,
        line_eq (sessionHeader playbackSessionID timeout oneLine_timeout) rfl, hsession, crlf_eq]
      simp [sessionHeader, timeout]
    · rfl

theorem textParameters_eq (content : JString) :
    textParameters content = headerLines (bodyHeaders content) ++ lineEnd ++ content := by
  have htype : jstr "Content-Type: text/parameters\r\n" =
      jstr ("Content-Type" ++ ":") ++ jstr " text/parameters" ++ lineEnd := by decide
  have hlength : jstr "Content-Length: " = jstr ("Content-Length" ++ ":") ++ jstr " " := by decide
  rw [textParameters, htype, hlength, crlf_eq, bodyHeaders, headerLines, List.flatMap_cons,
    List.flatMap_singleton, line_eq _ rfl, line_eq _ rfl]
  simp

/-! ## Messages -/

/-- The headers behind the common ones: some of the others, or those of a body. -/
inductive Closes : List Header → JString → Prop
  | bare {headers : List Header} (h : ∀ header ∈ headers, header.name ∈ [jstr "Require",
      jstr "Session", jstr "Public", jstr "Range", jstr "Connection", jstr "Transport"]) :
      Closes headers []
  | body (content : JString) : Closes (bodyHeaders content) content

theorem Closes.nil : Closes [] [] := .bare (by simp)

/-- The text is a message with one of these start lines. -/
structure IsText (lines : List JString) (cseq : ℤ) (m : Written) : Prop where
  startLine : m.startLine ∈ lines
  headers : ∃ (env : Env) (henv : env.OneLine) (playbackSessionID : ℤ) (closing : List Header),
    m.headers = commonHeaders henv cseq playbackSessionID ++ closing ∧ Closes closing m.content

def requestLines : List JString :=
  [jstr "OPTIONS * RTSP/1.0", jstr "GET_PARAMETER rtsp://localhost/wfd1.0 RTSP/1.0",
    jstr "SET_PARAMETER rtsp://localhost/wfd1.0 RTSP/1.0"]

def statuses : List JString :=
  [jstr "200 OK", jstr "400 Bad Request", jstr "403 Forbidden", jstr "404 Not Found",
    jstr "404 Not found", jstr "405 Method Not Allowed", jstr "454 Session Not Found",
    jstr "455 Method Not Valid in This State", jstr "461 Unsupported Transport",
    jstr "505 RTSP Version not supported"]

def statusLines : List JString := statuses.map fun status => jstr "RTSP/1.0 " ++ status

/-! ## What is read -/

def lower (s : JString) : JString := s.map fun c => if 65 ≤ c ∧ c ≤ 90 then c + 32 else c

/-- The names of the headers behind the start line. -/
def headerNames : List JString :=
  [jstr "Date", jstr "Server", jstr "Session", jstr "Require", jstr "Public", jstr "Range",
    jstr "Connection", jstr "Transport", jstr "Content-Type"]

theorem commonHeaders_names {env : Env} {henv : env.OneLine} {cseq playbackSessionID : ℤ}
    {header : Header} (h : header ∈ commonHeaders henv cseq playbackSessionID) :
    header.name ∈ headerNames ∨ header.name = jstr "CSeq" := by
  have hdate : jstr "Date" ∈ headerNames := by decide
  have hserver : jstr "Server" ∈ headerNames := by decide
  have hsession : jstr "Session" ∈ headerNames := by decide
  rw [commonHeaders, List.mem_append, List.mem_append] at h
  rcases h with (h | h) | h
  · rcases List.mem_cons.mp h with rfl | h
    · exact .inl hdate
    · cases List.mem_singleton.mp h
      exact .inl hserver
  · split at h
    · cases List.mem_singleton.mp h
      exact .inr rfl
    · cases h
  · split at h
    · cases List.mem_singleton.mp h
      exact .inl hsession
    · cases h

theorem Closes.names {closing : List Header} {content : JString} (h : Closes closing content)
    {header : Header} (hmem : header ∈ closing) :
    header.name ∈ headerNames ∨ header.name = jstr "Content-Length" := by
  cases h with
  | bare h =>
      have hnames : ∀ name ∈ [jstr "Require", jstr "Session", jstr "Public", jstr "Range",
          jstr "Connection", jstr "Transport"], name ∈ headerNames := by decide
      exact .inl (hnames _ (h header hmem))
  | body content =>
      have htype : jstr "Content-Type" ∈ headerNames := by decide
      rcases List.mem_cons.mp hmem with rfl | hmem
      · exact .inl htype
      · cases List.mem_singleton.mp hmem
        exact .inr rfl

theorem trim_number (n : ℤ) : trim (jstr " " ++ decimal n) = decimal n := by
  have hblank : jstr " " = [0x20] := by decide
  have hdigits : ∀ c ∈ decimal n, 0x20 < c := by
    intro c hc
    have hbounds := mem_decimal hc
    omega
  rw [hblank, List.singleton_append, trim_cons (by decide)]
  exact trim_eq_self (fun c hc => hdigits c (List.mem_of_mem_head? hc))
    fun c hc => hdigits c (List.mem_of_mem_getLast? hc)

/-- The keys that a reader asks for. -/
def keys : List JString := [jstr "_", jstr "cseq", jstr "content-length"]

section

variable [CharData]

theorem getString_of_key {key : JString} (hkey : key ∈ keys) (mDict : List (JString × JString)) :
    getString mDict key = mDict.lookup key := by
  have hsmall : ∀ key ∈ keys, ∀ c ∈ key, c < 128 ∧ ¬ (65 ≤ c ∧ c ≤ 90) := by decide
  rw [getString, CharData.toLowerCase_eq_self (hsmall key hkey)]

variable (hlower : LowersAscii)

include hlower

theorem toLowerCase_name {name : JString}
    (h : name ∈ jstr "CSeq" :: jstr "Content-Length" :: headerNames) :
    CharData.toLowerCase name = lower name := by
  have hascii : ∀ name ∈ jstr "CSeq" :: jstr "Content-Length" :: headerNames,
      ∀ c ∈ name, c < 128 ∧ c ≠ 73 := by decide
  exact hlower name (hascii name h)

theorem toLowerCase_cseq : CharData.toLowerCase (jstr "CSeq") = jstr "cseq" := by
  rw [toLowerCase_name hlower (by decide)]
  decide

theorem toLowerCase_contentLength :
    CharData.toLowerCase (jstr "Content-Length") = jstr "content-length" := by
  rw [toLowerCase_name hlower (by decide)]
  decide

theorem ne_of_mem_headerNames {name key : JString} (h : name ∈ headerNames) (hkey : key ∈ keys) :
    key ≠ CharData.toLowerCase name := by
  have hall : ∀ name ∈ headerNames, ∀ key ∈ keys, key ≠ lower name := by decide
  rw [toLowerCase_name hlower (List.mem_cons_of_mem _ (List.mem_cons_of_mem _ h))]
  exact hall name h key hkey

/-! ## The closing headers -/

theorem Closes.lookup {closing : List Header} {content : JString} (h : Closes closing content)
    {key : JString} (hkey : key ∈ [jstr "_", jstr "cseq"]) (headers : Headers) :
    ((closing.map Header.line).foldl Headers.add headers).mDict.lookup key =
      headers.mDict.lookup key := by
  have hkeys : ∀ key ∈ [jstr "_", jstr "cseq"], key ∈ keys ∧ key ≠ jstr "content-length" := by
    decide
  obtain ⟨hkey, hne⟩ := hkeys key hkey
  refine lookup_of_forall_ne (fun header hmem => ?_) headers
  rcases h.names hmem with hname | hname
  · exact ne_of_mem_headerNames hlower hname hkey
  · rwa [hname, toLowerCase_contentLength hlower]

theorem Closes.contentLength {closing : List Header} {content : JString}
    (h : Closes closing content) (hlength : content.length < 2 ^ 31) {headers : Headers}
    (hnone : headers.mDict.lookup (jstr "content-length") = none) :
    getInt ((closing.map Header.line).foldl Headers.add headers).mDict (jstr "content-length") 0 =
      .ok content.length := by
  have hkey : jstr "content-length" ∈ keys := by decide
  rw [getInt, getString_of_key hkey]
  cases h with
  | bare h =>
      have hnames : ∀ name ∈ [jstr "Require", jstr "Session", jstr "Public", jstr "Range",
          jstr "Connection", jstr "Transport"], name ∈ headerNames := by decide
      rw [lookup_of_forall_ne (fun header hmem =>
        ne_of_mem_headerNames hlower (hnames _ (h header hmem)) hkey), hnone]
      rfl
  | body content =>
      rw [bodyHeaders, List.map_cons, List.map_singleton, List.foldl_cons, List.foldl_cons,
        List.foldl_nil, Header.lookup_add_line]
      dsimp only
      rw [toLowerCase_contentLength hlower, if_pos rfl, trim_number]
      exact parseInt_decimal (by omega) (by omega)

/-! ## The common headers -/

variable {env : Env} (henv : env.OneLine) (cseq playbackSessionID : ℤ) (headers : Headers)

theorem lookup_commonHeaders {key : JString} (hkey : key ∈ [jstr "_", jstr "content-length"]) :
    (((commonHeaders henv cseq playbackSessionID).map Header.line).foldl Headers.add
      headers).mDict.lookup key = headers.mDict.lookup key := by
  have hkeys : ∀ key ∈ [jstr "_", jstr "content-length"], key ∈ keys ∧ key ≠ jstr "cseq" := by
    decide
  obtain ⟨hkey, hne⟩ := hkeys key hkey
  refine lookup_of_forall_ne (fun header hmem => ?_) headers
  rcases commonHeaders_names hmem with hname | hname
  · exact ne_of_mem_headerNames hlower hname hkey
  · rwa [hname, toLowerCase_cseq hlower]

theorem lookup_cseq :
    (((commonHeaders henv cseq playbackSessionID).map Header.line).foldl Headers.add
      headers).mDict.lookup (jstr "cseq") =
        if 0 ≤ cseq then some (decimal cseq) else headers.mDict.lookup (jstr "cseq") := by
  have hkey : jstr "cseq" ∈ keys := by decide
  have hname : (cseqHeader cseq).name = jstr "CSeq" := rfl
  have hdate : (dateHeader henv).name ∈ headerNames := List.mem_cons_self
  have hserver : (serverHeader henv).name ∈ headerNames :=
    List.mem_cons_of_mem _ List.mem_cons_self
  have hskip : ∀ others : List Header, (∀ header ∈ others, header.name ∈ headerNames) →
      ∀ h : Headers, ((others.map Header.line).foldl Headers.add h).mDict.lookup (jstr "cseq") =
        h.mDict.lookup (jstr "cseq") := fun others hothers => lookup_of_forall_ne fun header hmem =>
    ne_of_mem_headerNames hlower (hothers header hmem) hkey
  rw [commonHeaders, List.map_append, List.map_append, List.foldl_append, List.foldl_append, hskip]
  · split
    · rw [List.map_singleton, List.foldl_cons, List.foldl_nil, Header.lookup_add_line, hname,
        if_pos (toLowerCase_cseq hlower).symm]
      exact congrArg some (trim_number cseq)
    · rw [List.map_nil, List.foldl_nil, hskip]
      rintro header (_ | ⟨_, hmem⟩)
      · exact hdate
      · cases List.mem_singleton.mp hmem
        exact hserver
  · have hsession : (sessionHeader playbackSessionID timeout oneLine_timeout).name ∈
        headerNames := List.mem_cons_of_mem _ (List.mem_cons_of_mem _ List.mem_cons_self)
    intro header hmem
    split at hmem
    · cases List.mem_singleton.mp hmem
      exact hsession
    · cases hmem

end

/-! ## Whole texts -/

section

variable [CharData] (hlower : LowersAscii) {lines : List JString} {cseq : ℤ} {m : Written}

include hlower

theorem IsText.measured (h : IsText lines cseq m) (hlength : m.text.length < 2 ^ 31) :
    m.Measured := by
  obtain ⟨env, henv, playbackSessionID, closing, hheaders, hcloses⟩ := h.headers
  have hcontent : m.content.length < 2 ^ 31 := by
    rw [Written.text, List.length_append] at hlength
    omega
  have hstart : (Headers.start m.startLine).mDict.lookup (jstr "content-length") = none := rfl
  rw [Written.Measured, Written.mDict, hheaders, List.map_append, List.foldl_append]
  refine hcloses.contentLength hlower hcontent ?_
  rw [lookup_commonHeaders hlower henv cseq playbackSessionID _ (by decide), hstart]

theorem IsText.getInt_cseq (h : IsText lines cseq m) (hlo : -2 ^ 31 ≤ cseq)
    (hhi : cseq < 2 ^ 31) :
    getInt m.mDict (jstr "cseq") (-1) = .ok (if 0 ≤ cseq then cseq else -1) := by
  obtain ⟨env, henv, playbackSessionID, closing, hheaders, hcloses⟩ := h.headers
  have hstart : (Headers.start m.startLine).mDict.lookup (jstr "cseq") = none := rfl
  rw [getInt, getString_of_key (by decide), Written.mDict, hheaders, List.map_append,
    List.foldl_append, hcloses.lookup hlower (by decide), lookup_cseq hlower, hstart]
  by_cases hpos : 0 ≤ cseq
  · rw [if_pos hpos, if_pos hpos]
    exact parseInt_decimal hlo hhi
  · rw [if_neg hpos, if_neg hpos]

theorem IsText.getString_startLine (h : IsText lines cseq m) :
    getString m.mDict (jstr "_") = some (trim m.startLine) := by
  obtain ⟨env, henv, playbackSessionID, closing, hheaders, hcloses⟩ := h.headers
  rw [getString_of_key (by decide), Written.mDict, hheaders, List.map_append, List.foldl_append,
    hcloses.lookup hlower (by decide), lookup_commonHeaders hlower henv cseq playbackSessionID _
    (by decide)]
  rfl

theorem IsText.getRequestField_eq (h : IsText lines cseq m) {index : ℕ} {field : JString}
    (hfield : (splitSpaces (trim m.startLine))[index]? = some field) :
    m.parsed.getRequestField index = .ok field := by
  simp only [getRequestField, Written.parsed, h.getString_startLine hlower, hfield]

theorem IsText.checkToString_eq (h : IsText lines cseq m) (hne : trim m.startLine ≠ []) :
    m.parsed.checkToString = .ok () := by
  rw [checkToString, Written.parsed, h.getString_startLine hlower, if_neg]
  simpa using hne

/-- A request of the source is read as a request. -/
theorem IsText.kind_request (h : IsText requestLines cseq m) (hlo : -2 ^ 31 ≤ cseq)
    (hhi : cseq < 2 ^ 31) :
    ∃ method ∈ [jstr "OPTIONS", jstr "GET_PARAMETER", jstr "SET_PARAMETER"],
      kind m.parsed = if 0 ≤ cseq then some (.request method cseq) else none := by
  have hall : ∀ line ∈ requestLines, (∀ c ∈ trim line, c < 128 ∧ c ≠ 0x0b) ∧ trim line ≠ [] ∧
      (splitRuns isAsciiSpace (trim line))[2]? = some (jstr "RTSP/1.0") ∧
      ∃ method ∈ [jstr "OPTIONS", jstr "GET_PARAMETER", jstr "SET_PARAMETER"],
        (splitRuns isAsciiSpace (trim line))[0]? = some method ∧
          ¬ (jstr "RTSP/").isPrefixOf method := by
    decide
  obtain ⟨hascii, hne, hversion, method, hmethod, hfirst, hnot⟩ := hall _ h.startLine
  rw [← splitSpaces_ascii hascii] at hversion hfirst
  refine ⟨method, hmethod, ?_⟩
  have hcseq : getInt m.parsed.mDict (jstr "cseq") (-1) = _ := h.getInt_cseq hlower hlo hhi
  simp only [kind, h.checkToString_eq hlower hne, h.getRequestField_eq hlower hfirst, hcseq, hnot,
    h.getRequestField_eq hlower hversion]
  split
  · rw [if_neg (by omega)]
    simp
  · rfl

/-- A response of the source is read as a response. -/
theorem IsText.kind_response (h : IsText statusLines cseq m) (hlo : -2 ^ 31 ≤ cseq)
    (hhi : cseq < 2 ^ 31) :
    (kind m.parsed = if 0 ≤ cseq then some (.response cseq) else none) ∧
      ∃ statusCode ∈ ([200, 400, 403, 404, 405, 454, 455, 461, 505] : List ℤ),
        m.parsed.getStatusCode = .ok statusCode := by
  have hall : ∀ line ∈ statusLines, (∀ c ∈ trim line, c < 128 ∧ c ≠ 0x0b) ∧ trim line ≠ [] ∧
      (splitRuns isAsciiSpace (trim line))[0]? = some (jstr "RTSP/1.0") ∧
      ∃ statusCode ∈ ([200, 400, 403, 404, 405, 454, 455, 461, 505] : List ℤ),
        (splitRuns isAsciiSpace (trim line))[1]? = some (decimal statusCode) := by
    decide
  obtain ⟨hascii, hne, hversion, statusCode, hmem, hstatus⟩ := hall _ h.startLine
  rw [← splitSpaces_ascii hascii] at hversion hstatus
  have hbounds : 100 ≤ statusCode ∧ statusCode ≤ 999 := by
    have hcodes : ∀ statusCode ∈ ([200, 400, 403, 404, 405, 454, 455, 461, 505] : List ℤ),
        100 ≤ statusCode ∧ statusCode ≤ 999 := by decide
    exact hcodes statusCode hmem
  have hcseq : getInt m.parsed.mDict (jstr "cseq") (-1) = _ := h.getInt_cseq hlower hlo hhi
  constructor
  · simp only [kind, h.checkToString_eq hlower hne, h.getRequestField_eq hlower hversion, hcseq]
    split
    · rw [if_neg (by omega), if_pos (by decide)]
    · rfl
  · refine ⟨statusCode, hmem, ?_⟩
    rw [getStatusCode, h.getRequestField_eq hlower hstatus, ok_bind,
      parseInt_decimal (by omega) (by omega), ok_bind, if_neg (by omega)]
    rfl

end

end WifiDisplaySource

end MirrorCast
