import RootSeeker.Contracts.Common
import RootSeeker.Core.Loops
import RootSeeker.Python.PercentEncoding
import RootSeeker.Python.Repr
import RootSeeker.Python.Urls

/-!
# Credentials in the addresses of repositories

The user name and the token of a git provider are written into the address of a
repository, in front of the host that was checked against the provider.
-/

namespace RootSeeker.CodeIndex

open Python Contracts

/-- `_PROVIDER_GIT_HOST_SUFFIXES`. -/
def providerGitHostSuffixes : Dict PyStr (List PyStr) :=
  [(py "github", [py "github.com"]), (py "gitee", [py "gitee.com"]),
    (py "yunxiao", [py "codeup.aliyun.com"])]

/-- What the library looks up, and the user name for Codeup in the environment. -/
structure GitAuth where
  std : Stdlib
  tables : UrlTables
  codeupUsername : PyStr

namespace GitAuth

variable (auth : GitAuth)

def defaultGitUsername (provider : PyStr) : PyStr :=
  if provider = py "github" then py "x-access-token"
  else if provider = py "gitee" then py "oauth2"
  else if provider ∈ [py "yunxiao", py "codeup"] then strip auth.codeupUsername
  else []

def normalizeGitProvider (provider : PyStr) : PyStr :=
  let value := lower auth.std (strip provider)
  if value = py "codeup" then py "yunxiao"
  else if value = [] then py "custom" else value

/-- `urlparse`, with a text of our own for its `ValueError`. -/
def parse (url : PyStr) : Except PyError Url :=
  match urlparse auth.tables auth.std url with
  | some parsed => .ok parsed
  | none => .error (.valueError (py "Invalid URL"))

/-- `parsed.port`. -/
def portOf (parsed : Url) : Except PyError (Option ℕ) :=
  match parsed.port with
  | some port => .ok port
  | none => .error (.valueError (py "Port could not be cast to integer value"))

def gitUrlHostAllowed (url provider : PyStr) : Except PyError Bool := do
  let normalized := auth.normalizeGitProvider provider
  if normalized = py "custom" then return true
  let parsed ← auth.parse url
  let host := lower auth.std (parsed.hostname auth.std)
  if host = [] then return false
  match providerGitHostSuffixes.get? normalized with
  | none => return true
  | some suffixes => return suffixes.any fun suffix => host = suffix ∨ py "." ++ suffix <:+ host

def assertGitUrlAllowedForProvider (url provider : PyStr) : Except PyError Unit := do
  if ← auth.gitUrlHostAllowed url provider then return
  let parsed ← auth.parse url
  throw (.valueError (py "仓库 URL 域名「" ++ parsed.hostname auth.std ++
    py "」与远端源 provider「" ++ auth.normalizeGitProvider provider ++
    py "」不匹配，已拒绝注入凭据"))

def missingUsername : PyStr :=
  py "云效 Codeup 缺少 HTTPS 克隆账号（git_username）。" ++
  py "请任选其一：" ++
  py "① Admin → 仓库管理 → 远端源管理 → 编辑 codeup → 填写「HTTPS 克隆账号」" ++
  py "（Codeup → 个人设置 → HTTPS 密码 → 克隆账号）；" ++
  py "② 在 .env 中设置 ROOTSEEKER_CODEUP_GIT_USERNAME 后重启容器。" ++
  py "注意：克隆账号不是 organizationId，也不是登录邮箱。"

def quoted (text : PyStr) : Except PyError PyStr :=
  match quote text with
  | some quoted => .ok quoted
  | none => .error .unicodeEncodeError

/-- The port after the host; no port and port zero are left out. -/
def portText : Option ℕ → PyStr
  | none => []
  | some 0 => []
  | some (port + 1) => colonChar :: decimal (port + 1)

def buildAuthenticatedGitUrl (url provider username token : PyStr) : Except PyError PyStr := do
  if url = [] ∨ token = [] then return url
  let parsed ← auth.parse url
  if parsed.scheme ∉ [py "http", py "https"] then return url
  let provider := auth.normalizeGitProvider provider
  auth.assertGitUrlAllowedForProvider url provider
  let user := if strip username = [] then auth.defaultGitUsername provider else strip username
  if user = [] then throw (.valueError missingUsername)
  let safeUser ← quoted user
  let safeToken ← quoted token
  let port ← portOf parsed
  let netloc := safeUser ++ colonChar :: safeToken ++
    atSign :: (parsed.hostname auth.std ++ portText port)
  return { parsed with netloc }.unparse

/-- The address of a host, without a user, that the check of the provider lets pass. -/
structure Admitted (url provider : PyStr) (parsed : Url) : Prop where
  parsed_eq : urlparse auth.tables auth.std url = some parsed
  web : parsed.scheme = py "http" ∨ parsed.scheme = py "https"
  noUser : atSign ∉ parsed.netloc
  ascii : ∀ c ∈ parsed.netloc, isAscii c = true
  host : parsed.hostname auth.std ≠ []
  port : parsed.port ≠ none
  allowed : auth.gitUrlHostAllowed url (auth.normalizeGitProvider provider) = .ok true

/-- Parsing the address that was built gives back the old one with this user and token. -/
def DecodesBack (url provider username token : PyStr) (parsed : Url) : Prop :=
  ∃ result reparsed user password,
    auth.buildAuthenticatedGitUrl url provider username token = .ok result ∧
    urlparse auth.tables auth.std result = some reparsed ∧
    reparsed.scheme = parsed.scheme ∧ reparsed.hostname auth.std = parsed.hostname auth.std ∧
    reparsed.port = parsed.port ∧ reparsed.path = parsed.path ∧ reparsed.params = parsed.params ∧
    reparsed.query = parsed.query ∧ reparsed.fragment = parsed.fragment ∧
    reparsed.userinfo = (some user, some password) ∧
    percentDecode user = some username ∧ percentDecode password = some token

/-- The host is not written in brackets, the port is not zero, the user name has no white space
around it, and both texts can be encoded. -/
def PlainHost (username token : PyStr) (parsed : Url) : Prop :=
  colonChar ∉ parsed.hostname auth.std ∧ openBracket ∉ parsed.hostname auth.std ∧
    parsed.port ≠ some (some 0) ∧ strip username = username ∧
    Encodable username ∧ Encodable token

/-! ## The address that is built -/

variable {auth} {url provider username token : PyStr} {parsed : Url}

variable {c : CodePoint} {text : PyStr}

theorem mem_netloc_of_mem_hostPort {netloc : PyStr} (hc : c ∈ (Url.hostPort netloc).1) :
    c ∈ netloc := by
  have hinfo : (Url.hostInfo netloc).Sublist netloc := (List.rtakeWhile_suffix _ _).sublist
  rw [Url.hostPort] at hc
  split at hc
  · exact hinfo.subset ((cutAt_snd_sublist _ _).subset ((cutAt_fst_sublist _ _).subset hc))
  · exact hinfo.subset ((cutAt_fst_sublist _ _).subset hc)

/-- A netloc with an ASCII host that is accepted has no closing bracket in the host. -/
theorem closeBracket_not_mem_hostPort {netloc : PyStr}
    (haccepted : netlocAccepted auth.tables netloc = true) (hnoUser : atSign ∉ netloc) :
    closeBracket ∉ (Url.hostPort netloc).1 := by
  rw [Url.hostPort, Url.hostInfo_of_not_mem hnoUser]
  split
  · exact not_mem_cutAt_fst closeBracket _
  · next hopen =>
    intro hmem
    simp only [netlocAccepted, Bool.and_eq_true, decide_eq_true_eq] at haccepted
    exact hopen (haccepted.1.1.mpr ((cutAt_fst_sublist _ _).subset hmem))

theorem mem_portText {port : Option ℕ} (hc : c ∈ portText port) :
    c = colonChar ∨ isDigit c = true := by
  match port with
  | none => exact absurd hc List.not_mem_nil
  | some 0 => exact absurd hc List.not_mem_nil
  | some (port + 1) => exact (List.mem_cons.mp hc).imp id fun hc => isDigit_of_mem_decimal c hc

theorem ne_of_isQuotedChar {d : CodePoint} (hc : isQuotedChar c = true)
    (hd : isQuotedChar d = false) : c ≠ d := by
  rintro rfl
  rw [hc] at hd
  exact absurd hd (by simp)

theorem inNetloc_of_isQuotedChar (hc : isQuotedChar c = true) : inNetloc c = true := by
  rw [inNetloc, decide_eq_true (ne_of_isQuotedChar hc (by decide)),
    decide_eq_true (ne_of_isQuotedChar hc (by decide)),
    decide_eq_true (ne_of_isQuotedChar hc (by decide))]
  rfl

theorem val_of_isQuotedChar (hc : isQuotedChar c = true) : 0x25 ≤ c.val ∧ c.val < 0x80 := by
  rw [isQuotedChar, Bool.or_eq_true, decide_eq_true_eq] at hc
  rcases hc with hplain | rfl
  · simp only [isUnreserved, Bool.or_eq_true, Bool.and_eq_true, decide_eq_true_eq] at hplain
    omega
  · decide

theorem isAscii_of_isQuotedChar (hc : isQuotedChar c = true) : isAscii c = true := by
  rw [isAscii, decide_eq_true_eq]
  exact (val_of_isQuotedChar hc).2

theorem not_layout_of_isQuotedChar (hc : isQuotedChar c = true) : isLayoutChar c = false := by
  have hval := val_of_isQuotedChar hc
  simp only [isLayoutChar, Bool.or_eq_false_iff, decide_eq_false_iff_not]
  omega

theorem isQuotedChar_of_isAsciiLetter (hletter : isAsciiLetter c = true) :
    isQuotedChar c = true := by
  simp only [isAsciiLetter, Bool.or_eq_true, Bool.and_eq_true, decide_eq_true_eq] at hletter
  simp only [isQuotedChar, isUnreserved, Bool.or_eq_true, Bool.and_eq_true, decide_eq_true_eq]
  omega

theorem isQuotedChar_of_isDigit (hdigit : isDigit c = true) : isQuotedChar c = true := by
  simp only [isDigit, Bool.and_eq_true, decide_eq_true_eq] at hdigit
  simp only [isQuotedChar, isUnreserved, Bool.or_eq_true, Bool.and_eq_true, decide_eq_true_eq]
  omega

namespace Admitted

variable (hadmitted : auth.Admitted url provider parsed)

include hadmitted

theorem netloc_ne_nil : parsed.netloc ≠ [] := by
  intro hempty
  apply hadmitted.host
  rw [Url.hostname, hempty]
  rfl

theorem wellFormed : parsed.WellFormed :=
  Url.wellFormed_of_urlparse hadmitted.parsed_eq hadmitted.web hadmitted.netloc_ne_nil

theorem isAscii_hostPort : ∀ c ∈ (Url.hostPort parsed.netloc).1, isAscii c = true :=
  fun c hc => hadmitted.ascii c (mem_netloc_of_mem_hostPort hc)

/-- A character of the host is one of the netloc or a letter. -/
theorem mem_hostname (hc : c ∈ parsed.hostname auth.std) :
    c ∈ parsed.netloc ∨ isAsciiLetter c = true :=
  (Url.mem_lowerHost hadmitted.isAscii_hostPort hc).imp mem_netloc_of_mem_hostPort id

theorem not_mem_hostname (hletter : isAsciiLetter c = false)
    (hc : c ∉ (Url.hostPort parsed.netloc).1) : c ∉ parsed.hostname auth.std := by
  intro hmem
  rcases Url.mem_lowerHost hadmitted.isAscii_hostPort hmem with hold | hnew
  · exact hc hold
  · rw [hletter] at hnew
    exact absurd hnew (by simp)

/-- Neither the host nor the port ends the netloc, has a user in front or layout in it. -/
theorem plain_info (port : Option ℕ) :
    ∀ c ∈ parsed.hostname auth.std ++ portText port,
      inNetloc c = true ∧ isLayoutChar c = false ∧ c ≠ atSign := by
  have hlayout := hadmitted.wellFormed.layout
  simp only [List.mem_cons, List.not_mem_nil, or_false, forall_eq_or_imp, forall_eq] at hlayout
  intro c hc
  rcases List.mem_append.mp hc with hc | hc
  · rcases hadmitted.mem_hostname hc with hold | hletter
    · refine ⟨hadmitted.wellFormed.netloc c hold, hlayout.1 c hold, ?_⟩
      rintro rfl
      exact hadmitted.noUser hold
    · have hquoted := isQuotedChar_of_isAsciiLetter hletter
      exact ⟨inNetloc_of_isQuotedChar hquoted, not_layout_of_isQuotedChar hquoted,
        ne_of_isQuotedChar hquoted (by decide)⟩
  · rcases mem_portText hc with rfl | hdigit
    · decide
    · have hquoted := isQuotedChar_of_isDigit hdigit
      exact ⟨inNetloc_of_isQuotedChar hquoted, not_layout_of_isQuotedChar hquoted,
        ne_of_isQuotedChar hquoted (by decide)⟩

theorem isAscii_info (port : Option ℕ) :
    ∀ c ∈ parsed.hostname auth.std ++ portText port, isAscii c = true := by
  intro c hc
  rcases List.mem_append.mp hc with hhost | hport
  · rcases hadmitted.mem_hostname hhost with hold | hletter
    · exact hadmitted.ascii c hold
    · exact isAscii_of_isQuotedChar (isQuotedChar_of_isAsciiLetter hletter)
  · rcases mem_portText hport with rfl | hdigit
    · decide
    · exact isAscii_of_isQuotedChar (isQuotedChar_of_isDigit hdigit)

end Admitted

/-- The netloc that is built. -/
def authenticated (auth : GitAuth) (parsed : Url) (user password : PyStr) (port : Option ℕ) :
    PyStr :=
  user ++ colonChar :: password ++ atSign :: (parsed.hostname auth.std ++ portText port)

section Authenticated

variable {user password : PyStr} {port : Option ℕ} {name : PyStr}
  (hadmitted : auth.Admitted url provider parsed) (huser : quote name = some user)
  (htoken : quote token = some password)

include hadmitted

theorem atSign_not_mem_info : atSign ∉ parsed.hostname auth.std ++ portText port :=
  fun hmem => (hadmitted.plain_info port _ hmem).2.2 rfl

theorem hostInfo_authenticated :
    Url.hostInfo (auth.authenticated parsed user password port) =
      parsed.hostname auth.std ++ portText port :=
  Url.hostInfo_append (atSign_not_mem_info hadmitted)

/-- Without brackets the host ends at the first colon. -/
theorem hostPort_authenticated (hopen : openBracket ∉ parsed.hostname auth.std) :
    Url.hostPort (auth.authenticated parsed user password port) =
      cutAt colonChar (parsed.hostname auth.std ++ portText port) := by
  have hinfo : openBracket ∉ parsed.hostname auth.std ++ portText port := by
    intro hmem
    rcases List.mem_append.mp hmem with hhost | hport
    · exact hopen hhost
    · rcases mem_portText hport with heq | hdigit
      · exact absurd heq (by decide)
      · exact absurd hdigit (by decide)
  rw [Url.hostPort, hostInfo_authenticated hadmitted, if_neg hinfo]

omit hadmitted in
theorem cutAt_hostname (hcolon : colonChar ∉ parsed.hostname auth.std) :
    cutAt colonChar (parsed.hostname auth.std ++ portText port) =
      (parsed.hostname auth.std, (portText port).tail) := by
  match port with
  | none => rw [portText, List.append_nil, cutAt_of_not_mem hcolon, List.tail_nil]
  | some 0 => rw [portText, List.append_nil, cutAt_of_not_mem hcolon, List.tail_nil]
  | some (port + 1) => rw [portText, cutAt_append hcolon, List.tail_cons]

/-- A host with a colon in it is cut off there. -/
theorem hostname_authenticated_ne (hcolon : colonChar ∈ parsed.hostname auth.std)
    (hopen : openBracket ∉ parsed.hostname auth.std) :
    Url.hostname auth.std { parsed with netloc := auth.authenticated parsed user password port } ≠
      parsed.hostname auth.std := by
  intro heq
  have hfirst : (cutAt colonChar (parsed.hostname auth.std ++ portText port)).1.length <
      (parsed.hostname auth.std).length := by
    rw [cutAt]
    simp only
    rw [List.takeWhile_append]
    split
    · next hwhole =>
      have hall := List.takeWhile_eq_self_iff.mp ((List.takeWhile_sublist _).eq_of_length hwhole)
      exact absurd (hall colonChar hcolon) (by simp)
    · next hshorter => exact lt_of_le_of_ne (List.takeWhile_sublist _).length_le hshorter
  have hascii : ∀ c ∈ (cutAt colonChar (parsed.hostname auth.std ++ portText port)).1,
      isAscii c = true :=
    fun c hc => hadmitted.isAscii_info port c ((cutAt_fst_sublist _ _).subset hc)
  rw [Url.hostname] at heq
  simp only at heq
  rw [hostPort_authenticated hadmitted hopen] at heq
  rw [← Url.length_lowerHost hascii, heq] at hfirst
  exact absurd hfirst (lt_irrefl _)

theorem hostname_authenticated (hcolon : colonChar ∉ parsed.hostname auth.std)
    (hopen : openBracket ∉ parsed.hostname auth.std) :
    Url.hostname auth.std { parsed with netloc := auth.authenticated parsed user password port } =
      parsed.hostname auth.std := by
  rw [Url.hostname, hostPort_authenticated hadmitted hopen, cutAt_hostname hcolon, Url.hostname,
    Url.lowerHost_idem hadmitted.isAscii_hostPort]

/-- The port that is written is read again, unless it is zero. -/
theorem port_authenticated (hport : parsed.port = some port)
    (hcolon : colonChar ∉ parsed.hostname auth.std) (hopen : openBracket ∉ parsed.hostname auth.std) :
    Url.port { parsed with netloc := auth.authenticated parsed user password port } =
      some (port.filter (· ≠ 0)) := by
  have htext : (Url.hostPort (auth.authenticated parsed user password port)).2 =
      (portText port).tail := by
    rw [hostPort_authenticated hadmitted hopen, cutAt_hostname hcolon]
  match port with
  | none => exact Url.port_of_empty htext
  | some 0 => exact Url.port_of_empty htext
  | some (port + 1) =>
    rw [Url.port_of_decimal (Url.port_eq_some hport) htext]
    rfl

include huser in
theorem userinfo_authenticated :
    Url.userinfo { parsed with netloc := auth.authenticated parsed user password port } =
      (some user, some password) := by
  refine Url.userinfo_append (atSign_not_mem_info hadmitted) ?_ rfl
  intro hcolon
  exact ne_of_isQuotedChar (isQuotedChar_of_mem_quote huser hcolon) (by decide) rfl

include huser htoken

omit hadmitted in
theorem mem_authenticated (hc : c ∈ auth.authenticated parsed user password port) :
    isQuotedChar c = true ∨ c = colonChar ∨ c = atSign ∨
      c ∈ parsed.hostname auth.std ++ portText port := by
  rw [authenticated, List.mem_append, List.mem_append, List.mem_cons, List.mem_cons] at hc
  rcases hc with (hc | hc | hc) | hc | hc
  · exact .inl (isQuotedChar_of_mem_quote huser hc)
  · exact .inr (.inl hc)
  · exact .inl (isQuotedChar_of_mem_quote htoken hc)
  · exact .inr (.inr (.inl hc))
  · exact .inr (.inr (.inr hc))

/-- The address with the credentials can be put together. -/
theorem wellFormed_authenticated :
    { parsed with netloc := auth.authenticated parsed user password port }.WellFormed := by
  apply hadmitted.wellFormed.withNetloc
  · intro c hc
    rcases mem_authenticated huser htoken hc with hquoted | rfl | rfl | hinfo
    · exact inNetloc_of_isQuotedChar hquoted
    · decide
    · decide
    · exact (hadmitted.plain_info port c hinfo).1
  · intro c hc
    rcases mem_authenticated huser htoken hc with hquoted | rfl | rfl | hinfo
    · exact not_layout_of_isQuotedChar hquoted
    · decide
    · decide
    · exact (hadmitted.plain_info port c hinfo).2.1

omit hadmitted in
/-- A bracket comes from the host. -/
theorem bracket_mem_authenticated_iff {bracket : CodePoint}
    (hbracket : bracket = openBracket ∨ bracket = closeBracket) :
    bracket ∈ auth.authenticated parsed user password port ↔
      bracket ∈ parsed.hostname auth.std := by
  constructor
  · intro hmem
    rcases mem_authenticated huser htoken hmem with hquoted | hcolon | hat | hinfo
    · rcases hbracket with rfl | rfl
      · exact absurd hquoted (by decide)
      · exact absurd hquoted (by decide)
    · rcases hbracket with rfl | rfl <;> exact absurd hcolon (by decide)
    · rcases hbracket with rfl | rfl <;> exact absurd hat (by decide)
    · apply (List.mem_append.mp hinfo).resolve_right
      intro hport
      rcases mem_portText hport with hcolon | hdigit
      · rcases hbracket with rfl | rfl <;> exact absurd hcolon (by decide)
      · rcases hbracket with rfl | rfl <;> exact absurd hdigit (by decide)
  · intro hmem
    exact List.mem_append_right _ (List.mem_cons_of_mem _ (List.mem_append_left _ hmem))

theorem isAscii_authenticated :
    ∀ c ∈ auth.authenticated parsed user password port, isAscii c = true := by
  intro c hc
  rcases mem_authenticated huser htoken hc with hquoted | rfl | rfl | hinfo
  · exact isAscii_of_isQuotedChar hquoted
  · decide
  · decide
  · exact hadmitted.isAscii_info port c hinfo

/-- The netloc that is built is accepted unless the host has a bracket in it. -/
theorem netlocAccepted_authenticated_iff :
    netlocAccepted auth.tables (auth.authenticated parsed user password port) = true ↔
      openBracket ∉ parsed.hostname auth.std := by
  have hclose : closeBracket ∉ auth.authenticated parsed user password port := by
    rw [bracket_mem_authenticated_iff huser htoken (.inr rfl)]
    exact hadmitted.not_mem_hostname (by decide) (closeBracket_not_mem_hostPort
      (Url.netlocAccepted_of_urlparse hadmitted.parsed_eq) hadmitted.noUser)
  have hall : ((auth.authenticated parsed user password port).all fun c =>
      isAscii c || !auth.tables.expands c) = true := by
    rw [List.all_eq_true]
    intro c hc
    rw [isAscii_authenticated hadmitted huser htoken c hc, Bool.true_or]
  rw [← not_congr (bracket_mem_authenticated_iff huser htoken (.inl rfl)),
    netlocAccepted, hall, Bool.and_true, Bool.and_eq_true, decide_eq_true_eq,
    iff_false_right hclose]
  constructor
  · exact fun haccepted => haccepted.1
  · intro hopen
    refine ⟨hopen, ?_⟩
    rw [Bool.or_eq_true, decide_eq_true_eq]
    exact .inl hopen

/-- Parsing the address that is built. -/
theorem urlparse_authenticated :
    urlparse auth.tables auth.std
        { parsed with netloc := auth.authenticated parsed user password port }.unparse =
      if openBracket ∈ parsed.hostname auth.std then none
      else some { parsed with netloc := auth.authenticated parsed user password port } := by
  rw [(wellFormed_authenticated hadmitted huser htoken).urlparse_unparse]
  by_cases hopen : openBracket ∈ parsed.hostname auth.std
  · rw [if_pos hopen, if_neg]
    rw [netlocAccepted_authenticated_iff hadmitted huser htoken]
    exact not_not_intro hopen
  · rw [if_neg hopen, if_pos]
    exact (netlocAccepted_authenticated_iff hadmitted huser htoken).mpr hopen

end Authenticated

/-- What the function gives for an admitted address. -/
theorem build_of_admitted (hadmitted : auth.Admitted url provider parsed) {port : Option ℕ}
    (hport : parsed.port = some port) (huser : strip username ≠ []) (htoken : token ≠ []) :
    auth.buildAuthenticatedGitUrl url provider username token =
      (quoted (strip username)).bind fun user => (quoted token).bind fun password =>
        .ok { parsed with netloc := auth.authenticated parsed user password port }.unparse := by
  have hurl : ¬(url = [] ∨ token = []) := by
    rintro (rfl | hempty)
    · exact hadmitted.netloc_ne_nil (by rw [← Option.some.inj hadmitted.parsed_eq]; rfl)
    · exact htoken hempty
  have hparse : auth.parse url = .ok parsed := by
    rw [parse, hadmitted.parsed_eq]
  have hweb : ¬parsed.scheme ∉ [py "http", py "https"] := by
    rcases hadmitted.web with hweb | hweb <;> rw [hweb] <;> decide
  have hallowed : auth.assertGitUrlAllowedForProvider url
      (auth.normalizeGitProvider provider) = .ok () := by
    rw [assertGitUrlAllowedForProvider, hadmitted.allowed]
    rfl
  have hportOf : portOf parsed = .ok port := by
    rw [portOf, hport]
  simp only [buildAuthenticatedGitUrl, if_neg hurl, hparse, if_neg hweb, hallowed, if_neg huser,
    hportOf, bind, Except.bind, pure, Except.pure]
  rfl

theorem quoted_eq_ok_iff {result : PyStr} : quoted text = .ok result ↔
    quote text = some result := by
  rw [quoted]
  cases quote text with
  | none => simp
  | some result => simp

theorem encodable_of_quote {result : PyStr} (hquoted : quote text = some result) :
    Encodable text := by
  rw [quote] at hquoted
  split at hquoted
  · assumption
  · exact absurd hquoted (by simp)

theorem exists_quote (hencodable : Encodable text) : ∃ result, quote text = some result :=
  ⟨_, if_pos hencodable⟩

/-- The address decodes back exactly when the host needs no brackets, the port is not zero,
the user name has no white space around it, and both texts can be encoded. -/
theorem decodes_back_iff (hadmitted : auth.Admitted url provider parsed)
    (husername : strip username ≠ []) (htoken : strip token ≠ []) :
    auth.DecodesBack url provider username token parsed ↔ auth.PlainHost username token parsed := by
  obtain ⟨port, hport⟩ := Option.ne_none_iff_exists'.mp hadmitted.port
  have htokenNe : token ≠ [] := by
    rintro rfl
    exact htoken rfl
  have hbuild := build_of_admitted hadmitted hport husername htokenNe
  constructor
  · rintro ⟨result, reparsed, user, password, hresult, hparsed, _, hhost, hportEq, _, _, _, _,
      huserinfo, huser, _⟩
    rw [hresult] at hbuild
    obtain ⟨safeUser, hsafeUser, hbuild⟩ := Loops.exists_of_bind_eq_ok hbuild.symm
    obtain ⟨safeToken, hsafeToken, hbuild⟩ := Loops.exists_of_bind_eq_ok hbuild
    rw [quoted_eq_ok_iff] at hsafeUser hsafeToken
    rw [← Except.ok.inj hbuild, urlparse_authenticated hadmitted hsafeUser hsafeToken] at hparsed
    have hopen : openBracket ∉ parsed.hostname auth.std := by
      intro hmem
      rw [if_pos hmem] at hparsed
      exact absurd hparsed (by simp)
    rw [if_neg hopen] at hparsed
    obtain rfl := Option.some.inj hparsed
    have hcolon : colonChar ∉ parsed.hostname auth.std :=
      fun hmem => hostname_authenticated_ne hadmitted hmem hopen hhost
    rw [port_authenticated hadmitted hport hcolon hopen, hport] at hportEq
    rw [userinfo_authenticated hadmitted hsafeUser] at huserinfo
    obtain ⟨rfl, _⟩ : safeUser = user ∧ safeToken = password := by simpa using huserinfo
    rw [percentDecode_quote hsafeUser] at huser
    have hstrip : strip username = username := Option.some.inj huser
    refine ⟨hcolon, hopen, ?_, hstrip, hstrip ▸ encodable_of_quote hsafeUser,
      encodable_of_quote hsafeToken⟩
    rw [hport]
    rintro hzero
    rw [Option.some.inj hzero] at hportEq
    exact absurd hportEq (by decide)
  · rintro ⟨hcolon, hopen, hzero, hstrip, huserEncodable, htokenEncodable⟩
    obtain ⟨safeUser, hsafeUser⟩ := exists_quote huserEncodable
    obtain ⟨safeToken, hsafeToken⟩ := exists_quote htokenEncodable
    rw [hstrip, quoted_eq_ok_iff.mpr hsafeUser, quoted_eq_ok_iff.mpr hsafeToken] at hbuild
    have hparsed : urlparse auth.tables auth.std
        { parsed with netloc := auth.authenticated parsed safeUser safeToken port }.unparse = _ :=
      urlparse_authenticated hadmitted hsafeUser hsafeToken
    rw [if_neg hopen] at hparsed
    refine ⟨_, _, safeUser, safeToken, hbuild, hparsed, rfl,
      hostname_authenticated hadmitted hcolon hopen, ?_, rfl, rfl, rfl, rfl,
      userinfo_authenticated hadmitted hsafeUser, percentDecode_quote hsafeUser,
      percentDecode_quote hsafeToken⟩
    rw [port_authenticated hadmitted hport hcolon hopen, hport]
    rw [hport] at hzero
    congr 1
    cases port with
    | none => rfl
    | some value =>
      apply Option.filter_some_pos
      rw [decide_eq_true_eq]
      rintro rfl
      exact hzero rfl

/-- No character expands, and brackets stand around the loopback address only. -/
def plainAuth : GitAuth where
  std := asciiStdlib
  tables := ⟨fun _ => false, fun netloc => netloc = py "[::1]"⟩
  codeupUsername := []

def publicUrl : PyStr := py "https://github.com/a/b.git"

def publicParts : Url := ⟨py "https", py "github.com", py "/a/b.git", [], [], []⟩

theorem admitted_publicUrl : plainAuth.Admitted publicUrl (py "github") publicParts where
  parsed_eq := by decide +kernel
  web := by decide
  noUser := by decide
  ascii := List.all_eq_true.mp (by decide : (py "github.com").all isAscii = true)
  host := by decide +kernel
  port := by decide +kernel
  allowed := by decide +kernel

theorem public_decodes_back :
    plainAuth.DecodesBack publicUrl (py "github") (py "bob") (py "a/b@c") publicParts ↔
      plainAuth.PlainHost (py "bob") (py "a/b@c") publicParts :=
  decodes_back_iff admitted_publicUrl (by decide +kernel) (by decide +kernel)

def loopbackUrl : PyStr := py "http://[::1]/r.git"

def loopbackParts : Url := ⟨py "http", py "[::1]", py "/r.git", [], [], []⟩

theorem admitted_loopbackUrl :
    plainAuth.Admitted loopbackUrl (py "custom") loopbackParts where
  parsed_eq := by decide +kernel
  web := by decide
  noUser := by decide
  ascii := List.all_eq_true.mp (by decide : (py "[::1]").all isAscii = true)
  host := by decide +kernel
  port := by decide +kernel
  allowed := by decide +kernel

/-- An address in brackets loses them. -/
theorem brackets_are_lost :
    plainAuth.Admitted loopbackUrl (py "custom") loopbackParts ∧
      plainAuth.buildAuthenticatedGitUrl loopbackUrl (py "custom") (py "bob") (py "t") =
        .ok (py "http://bob:t@::1/r.git") ∧
      ¬plainAuth.DecodesBack loopbackUrl (py "custom") (py "bob") (py "t") loopbackParts := by
  have hbuilt : plainAuth.buildAuthenticatedGitUrl loopbackUrl (py "custom") (py "bob") (py "t") =
      .ok (py "http://bob:t@::1/r.git") := by decide +kernel
  refine ⟨admitted_loopbackUrl, hbuilt, ?_⟩
  rintro ⟨result, reparsed, user, password, hresult, hparsed, _, hhost, _⟩
  rw [hbuilt] at hresult
  have hread : urlparse plainAuth.tables plainAuth.std (py "http://bob:t@::1/r.git") =
      some ⟨py "http", py "bob:t@::1", py "/r.git", [], [], []⟩ := by decide +kernel
  rw [← Except.ok.inj hresult, hread] at hparsed
  rw [← Option.some.inj hparsed] at hhost
  exact absurd hhost (by decide +kernel)

end GitAuth

end RootSeeker.CodeIndex
