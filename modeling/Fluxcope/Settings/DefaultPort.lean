import Fluxcope.Settings.PreviewSpec
/-!
# The default port in the filter of the recording

The patterns are matched against the effective URL as it is written and, when it uses the
default port of its scheme, against the other way to write it.
-/

namespace Fluxcope.Settings

open Fluxcope.Library Fluxcope.Mapping

/-! ## Texts -/

/-- `str::parse::<u16>`: digits, behind a plus sign if there is one. -/
def parseU16 (text : Text) : Option Nat :=
  let digits := if text.head? = some '+' then text.tail else text
  if digits ≠ [] ∧ digits.all Char.isDigit then
    let value := Nat.ofDigitChars 10 digits 0
    if value < 2 ^ 16 then some value else none
  else none

/-- What stands before and after the last `c`. -/
def rsplitOnce (c : Char) (text : Text) : Option (Text × Text) :=
  if c ∈ text then
    some ((text.reverse.dropWhile (· ≠ c)).tail.reverse, (text.reverse.takeWhile (· ≠ c)).reverse)
  else none

/-- `http::uri::Authority`: whether a text is one, and its port. -/
structure Authorities where
  parses : Text → Bool
  port : Text → Option Nat

/-! ## The other way to write the URL -/

section Includes

variable (authorities : Authorities) (globs : Globset)

def defaultPort (scheme : Text) : Option (Nat × Text) :=
  if Text.toAsciiLowercase scheme = "https".toList then some (443, ":443".toList)
  else if Text.toAsciiLowercase scheme = "http".toList then some (80, ":80".toList)
  else none

def endsAuthority (c : Char) : Bool := c = '/' || c = '?' || c = '#'

def defaultPortAlternateUrl (effectiveUrl : Text) : Option Text := do
  let (scheme, afterScheme) ← Text.splitOnce "://".toList effectiveUrl
  let (defaultPort, defaultPortText) ← defaultPort scheme
  let authority := afterScheme.takeWhile (!endsAuthority ·)
  let second := afterScheme.drop authority.length
  if !authorities.parses authority then none
  else
    match authorities.port authority with
    | some port =>
      if port = defaultPort then
        let (first, _) ← rsplitOnce ':' authority
        some (scheme ++ "://".toList ++ first ++ second)
      else none
    | none => some (scheme ++ "://".toList ++ authority ++ defaultPortText ++ second)

def RecordingPrefilter.includes (prefilter : RecordingPrefilter globs) (effectiveUrl : Text) :
    Bool :=
  if !prefilter.enabled then true
  else
    match prefilter.matcher with
    | .includeAll => true
    | .includeNone => false
    | .patterns matcher =>
      globs.isMatch matcher effectiveUrl ||
        (defaultPortAlternateUrl authorities effectiveUrl).any (globs.isMatch matcher)

end Includes

/-! ## Splitting texts -/

theorem rsplitOnce_concat {c : Char} (before : Text) {after : Text} (h : c ∉ after) :
    rsplitOnce c (before ++ c :: after) = some (before, after) := by
  have hreverse : (before ++ c :: after).reverse = after.reverse ++ c :: before.reverse := by
    simp
  have hafter : ∀ b ∈ after.reverse, decide (b ≠ c) = true := by
    intro b hb
    exact decide_eq_true fun heq => h (heq ▸ List.mem_reverse.1 hb)
  unfold rsplitOnce
  rw [if_pos (by simp), hreverse, List.dropWhile_append_of_pos hafter,
    List.takeWhile_append_of_pos hafter]
  simp

theorem rsplitOnce_eq_some {c : Char} {text before after : Text}
    (h : rsplitOnce c text = some (before, after)) : text = before ++ c :: after ∧ c ∉ after := by
  by_cases hmem : c ∈ text
  · obtain ⟨back, front, hsplit, hback⟩ := List.eq_append_cons_of_mem (List.mem_reverse.2 hmem)
    have htext : text = front.reverse ++ c :: back.reverse := by
      rw [← List.reverse_reverse text, hsplit]
      simp
    have hnot : c ∉ back.reverse := fun hin => hback (List.mem_reverse.1 hin)
    rw [htext, rsplitOnce_concat _ hnot] at h
    cases h
    exact ⟨htext, hnot⟩
  · unfold rsplitOnce at h
    rw [if_neg hmem] at h
    cases h

theorem splitOnce_first {c : Char} {pattern before : Text} (after : Text) (h : c ∉ before) :
    Text.splitOnce (c :: pattern) (before ++ (c :: pattern) ++ after) = some (before, after) := by
  induction before with
  | nil =>
    rw [List.nil_append, List.cons_append, Text.splitOnce, if_pos]
    · simp
    · simp
  | cons b before ih =>
    have hb : b ≠ c := fun heq => h (heq ▸ List.mem_cons_self)
    rw [List.cons_append, List.cons_append, Text.splitOnce, if_neg,
      ih fun hmem => h (List.mem_cons_of_mem b hmem)]
    · rfl
    · intro hfirst
      exact hb (List.cons_prefix_cons.1 (List.isPrefixOf_iff_prefix.1 hfirst)).1.symm

/-- The authority up to the colon of its port, and the text of the port. -/
def splitPort (authority : Text) : Text × Option Text :=
  match rsplitOnce ':' authority with
  | some (host, port) =>
    if '@' ∈ port ∨ ']' ∈ port then (authority, none) else (host, some port)
  | none => (authority, none)

theorem splitPort_of_none {authority : Text} (h : (splitPort authority).2 = none) :
    splitPort authority = (authority, none) := by
  unfold splitPort at h ⊢
  split at h
  case h_1 =>
    split at h
    case isTrue hcredentials => exact if_pos hcredentials
    case isFalse => cases h
  case h_2 => rfl

theorem splitPort_eq_some {authority host port : Text}
    (h : splitPort authority = (host, some port)) :
    authority = host ++ ':' :: port ∧ rsplitOnce ':' authority = some (host, port) := by
  unfold splitPort at h
  split at h
  case h_1 host' port' heq =>
    split at h
    case isTrue => cases h
    case isFalse =>
      cases h
      exact ⟨(rsplitOnce_eq_some heq).1, heq⟩
  case h_2 => cases h

theorem splitPort_digits (host : Text) {port : Text} (h : ∀ c ∈ port, c.isDigit = true) :
    splitPort (host ++ ':' :: port) = (host, some port) := by
  have hnot : ∀ c, c.isDigit = false → c ∉ port := by
    intro c hc hmem
    rw [h c hmem] at hc
    cases hc
  unfold splitPort
  rw [rsplitOnce_concat host (hnot ':' (by decide))]
  dsimp only
  rw [if_neg]
  rintro (hat | hbracket)
  · exact hnot '@' (by decide) hat
  · exact hnot ']' (by decide) hbracket

/-! ## The spellings of a URL -/

/-- What is relied on of the `http` crate: the port is what stands behind the last colon, if
it reads as one; there is one colon for it; and a port can be added. -/
structure Authorities.Lawful (authorities : Authorities) : Prop where
  port_eq : ∀ authority, authorities.parses authority = true →
    authorities.port authority = (splitPort authority).2.bind parseU16
  onePort : ∀ authority host port, authorities.parses authority = true →
    splitPort authority = (host, some port) → (splitPort host).2 = none
  addPort : ∀ authority port, authorities.parses authority = true →
    (splitPort authority).2 = none → port < 2 ^ 16 →
    authorities.parses (authority ++ ':' :: Nat.toDigits 10 port) = true

/-- A URL with the scheme http or https, cut around its authority. -/
structure HttpUrl where
  scheme : Text
  authority : Text
  second : Text
  port : Nat
  portText : Text
  scheme_port : defaultPort scheme = some (port, portText)
  authority_chars : ∀ c ∈ authority, endsAuthority c = false
  second_head : ∀ c ∈ second.head?, endsAuthority c = true

namespace HttpUrl

/-- The URL with another authority. -/
def withAuthority (url : HttpUrl) (authority : Text) : Text :=
  url.scheme ++ "://".toList ++ authority ++ url.second

def text (url : HttpUrl) : Text := url.withAuthority url.authority

/-- The authority names no port, an empty one, or the default port of the scheme. -/
def UsesDefaultPort (url : HttpUrl) : Prop :=
  ∀ port, (splitPort url.authority).2 = some port → port = [] ∨ parseU16 port = some url.port

/-- The other spelling: the default port is written out if it is not, and else left out. -/
def otherSpelling (url : HttpUrl) : Text :=
  match splitPort url.authority with
  | (host, none) | (host, some []) => url.withAuthority (host ++ url.portText)
  | (host, some _) => url.withAuthority host

end HttpUrl

/-- The filter takes the two spellings of the default port for the same. -/
structure IgnoresDefaultPort (authorities : Authorities) (globs : Globset) (url : HttpUrl) :
    Prop where
  defined : (defaultPortAlternateUrl authorities url.text).isSome = true ↔ url.UsesDefaultPort
  other : url.UsesDefaultPort →
    defaultPortAlternateUrl authorities url.text = some url.otherSpelling
  back : url.UsesDefaultPort →
    defaultPortAlternateUrl authorities url.otherSpelling = some url.text
  includes : url.UsesDefaultPort → ∀ prefilter : RecordingPrefilter globs,
    prefilter.includes authorities globs url.text =
      prefilter.includes authorities globs url.otherSpelling

/-- There is no colon for a port; or the default port stands there as it is written by
default, behind an authority of its own; or a port stands there that is another one. -/
def PlainPort (authorities : Authorities) (url : HttpUrl) : Prop :=
  match splitPort url.authority with
  | (_, none) => True
  | (host, some port) =>
    (':' :: port = url.portText ∧ authorities.parses host = true) ∨
      ∃ other, parseU16 port = some other ∧ other ≠ url.port

/-! ## What the alternate URL is -/

theorem keeps_authority {text : Text} (h : text.all (fun c => !endsAuthority c) = true) :
    ∀ c ∈ text, endsAuthority c = false := by
  intro c hc
  simpa using List.all_eq_true.1 h c hc

theorem defaultPort_cases {scheme portText : Text} {port : Nat}
    (h : defaultPort scheme = some (port, portText)) :
    ':' ∉ scheme ∧ port < 2 ^ 16 ∧ portText = ':' :: Nat.toDigits 10 port ∧
      parseU16 (Nat.toDigits 10 port) = some port ∧ ∀ c ∈ portText, endsAuthority c = false := by
  have hscheme : ∀ name : Text, Text.toAsciiLowercase scheme = name → ':' ∉ name →
      ':' ∉ scheme := by
    intro name hname hnot hmem
    exact hnot (hname ▸ List.mem_map_of_mem hmem)
  unfold defaultPort at h
  split at h
  case isTrue hhttps =>
    cases h
    exact ⟨hscheme _ hhttps (by decide), by decide, by decide, by decide,
      keeps_authority (by decide)⟩
  case isFalse =>
    split at h
    case isTrue hhttp =>
      cases h
      exact ⟨hscheme _ hhttp (by decide), by decide, by decide, by decide,
        keeps_authority (by decide)⟩
    case isFalse => cases h

theorem alternate_withAuthority {authorities : Authorities} (url : HttpUrl) {authority : Text}
    (h : ∀ c ∈ authority, endsAuthority c = false) :
    defaultPortAlternateUrl authorities (url.withAuthority authority) =
      if !authorities.parses authority then none
      else
        match authorities.port authority with
        | some port =>
          if port = url.port then
            (rsplitOnce ':' authority).map fun (first, _) => url.withAuthority first
          else none
        | none => some (url.withAuthority (authority ++ url.portText)) := by
  obtain ⟨hscheme, -⟩ := defaultPort_cases url.scheme_port
  have hsplit : Text.splitOnce "://".toList (url.withAuthority authority) =
      some (url.scheme, authority ++ url.second) := by
    unfold HttpUrl.withAuthority
    rw [List.append_assoc]
    exact splitOnce_first _ hscheme
  have htake : (authority ++ url.second).takeWhile (!endsAuthority ·) = authority := by
    rw [List.takeWhile_append_of_pos fun c hc => by rw [h c hc]; rfl]
    cases hsecond : url.second with
    | nil => simp
    | cons c rest =>
      have hc := url.second_head c (by rw [hsecond]; rfl)
      rw [List.takeWhile_cons_of_neg (by rw [hc]; decide), List.append_nil]
  unfold defaultPortAlternateUrl
  rw [hsplit, Option.bind_eq_bind, Option.bind_some]
  dsimp only
  rw [url.scheme_port, Option.bind_eq_bind, Option.bind_some]
  dsimp only
  rw [htake, List.drop_left]
  have hadd : url.scheme ++ "://".toList ++ authority ++ url.portText ++ url.second =
      url.withAuthority (authority ++ url.portText) := by
    unfold HttpUrl.withAuthority
    rw [List.append_assoc (url.scheme ++ "://".toList) authority]
  have hdrop : ((rsplitOnce ':' authority).bind fun (first, _) =>
      some (url.scheme ++ "://".toList ++ first ++ url.second)) =
      (rsplitOnce ':' authority).map fun (first, _) => url.withAuthority first := by
    cases rsplitOnce ':' authority <;> rfl
  rw [hadd, hdrop]

/-- Where each spelling is the other's alternate URL, both are included or neither is. -/
theorem includes_comm {authorities : Authorities} {globs : Globset} {url other : Text}
    (hurl : defaultPortAlternateUrl authorities url = some other)
    (hother : defaultPortAlternateUrl authorities other = some url)
    (prefilter : RecordingPrefilter globs) :
    prefilter.includes authorities globs url = prefilter.includes authorities globs other := by
  unfold RecordingPrefilter.includes
  rw [hurl, hother]
  cases prefilter.matcher with
  | includeAll => rfl
  | includeNone => rfl
  | patterns matcher =>
    dsimp only [Option.any_some]
    rw [Bool.or_comm]

theorem ignoresDefaultPort_iff_alternate {authorities : Authorities} {globs : Globset}
    {url : HttpUrl} :
    IgnoresDefaultPort authorities globs url ↔
      ((defaultPortAlternateUrl authorities url.text).isSome = true → url.UsesDefaultPort) ∧
      (url.UsesDefaultPort →
        defaultPortAlternateUrl authorities url.text = some url.otherSpelling ∧
        defaultPortAlternateUrl authorities url.otherSpelling = some url.text) := by
  constructor
  · intro h
    exact ⟨h.defined.1, fun huses => ⟨h.other huses, h.back huses⟩⟩
  · intro h
    refine ⟨⟨h.1, fun huses => ?_⟩, fun huses => (h.2 huses).1, fun huses => (h.2 huses).2,
      fun huses prefilter => includes_comm (h.2 huses).1 (h.2 huses).2 prefilter⟩
    rw [(h.2 huses).1]
    rfl

theorem withAuthority_inj {url : HttpUrl} {left right : Text}
    (h : url.withAuthority left = url.withAuthority right) : left = right := by
  unfold HttpUrl.withAuthority at h
  exact List.append_cancel_left (List.append_cancel_right h)

section Spec

variable {authorities : Authorities} {globs : Globset} {url : HttpUrl}

/-- Of an authority without a port, the alternate URL is the one with the port. -/
theorem alternate_of_portless (hlawful : authorities.Lawful) {authority : Text}
    (hchars : ∀ c ∈ authority, endsAuthority c = false)
    (hparses : authorities.parses authority = true)
    (hportless : (splitPort authority).2 = none) :
    defaultPortAlternateUrl authorities (url.withAuthority authority) =
      some (url.withAuthority (authority ++ url.portText)) := by
  rw [alternate_withAuthority url hchars, hparses, hlawful.port_eq _ hparses, hportless]
  rfl

theorem alternate_of_default (hlawful : authorities.Lawful) {host port : Text}
    (hchars : ∀ c ∈ host ++ ':' :: port, endsAuthority c = false)
    (hparses : authorities.parses (host ++ ':' :: port) = true)
    (hsplit : splitPort (host ++ ':' :: port) = (host, some port))
    (hport : parseU16 port = some url.port) :
    defaultPortAlternateUrl authorities (url.withAuthority (host ++ ':' :: port)) =
      some (url.withAuthority host) := by
  rw [alternate_withAuthority url hchars, hparses, hlawful.port_eq _ hparses, hsplit,
    Option.bind_some, hport, (splitPort_eq_some hsplit).2]
  exact if_pos rfl

theorem ignoresDefaultPort_portless (hlawful : authorities.Lawful)
    (hparses : authorities.parses url.authority = true)
    (hportless : (splitPort url.authority).2 = none) :
    IgnoresDefaultPort authorities globs url := by
  obtain ⟨-, hlt, htext, hread, hportChars⟩ := defaultPort_cases url.scheme_port
  have huses : url.UsesDefaultPort := by
    intro port hport
    rw [hportless] at hport
    cases hport
  have hother : url.otherSpelling = url.withAuthority (url.authority ++ url.portText) := by
    unfold HttpUrl.otherSpelling
    rw [splitPort_of_none hportless]
  have hchars : ∀ c ∈ url.authority ++ url.portText, endsAuthority c = false := fun c hc =>
    (List.mem_append.1 hc).elim (url.authority_chars c) (hportChars c)
  have hadded := hlawful.addPort _ _ hparses hportless hlt
  rw [htext] at hchars hother
  refine ignoresDefaultPort_iff_alternate.2 ⟨fun _ => huses, fun _ => ⟨?_, ?_⟩⟩
  · rw [hother, ← htext]
    exact alternate_of_portless hlawful url.authority_chars hparses hportless
  · rw [hother]
    exact alternate_of_default hlawful hchars hadded
      (splitPort_digits _ fun c hc => Nat.isDigit_of_mem_toDigits (by decide) (by decide) hc) hread

theorem parseU16_nil : parseU16 [] = none := by decide

theorem ignoresDefaultPort_iff_of_port (hlawful : authorities.Lawful)
    (hparses : authorities.parses url.authority = true) {host port : Text}
    (hsplit : splitPort url.authority = (host, some port)) :
    IgnoresDefaultPort authorities globs url ↔
      ((':' :: port = url.portText ∧ authorities.parses host = true) ∨
        ∃ other, parseU16 port = some other ∧ other ≠ url.port) := by
  obtain ⟨-, -, htext, hread, -⟩ := defaultPort_cases url.scheme_port
  obtain ⟨hauthority, hlast⟩ := splitPort_eq_some hsplit
  have hport : authorities.port url.authority = parseU16 port := by
    rw [hlawful.port_eq _ hparses, hsplit, Option.bind_some]
  have halternate := @alternate_withAuthority authorities url _ url.authority_chars
  rw [hparses, hport, hlast] at halternate
  have hhost : ∀ c ∈ host, endsAuthority c = false := fun c hc =>
    url.authority_chars c (hauthority ▸ List.mem_append_left _ hc)
  have hhostPort : (splitPort host).2 = none := hlawful.onePort _ _ _ hparses hsplit
  rw [ignoresDefaultPort_iff_alternate]
  cases hparsed : parseU16 port with
  | none =>
    -- An empty port, or one that is no port, is taken for none: it gets a second colon.
    rw [hparsed] at halternate
    have halt : defaultPortAlternateUrl authorities url.text =
        some (url.withAuthority (url.authority ++ url.portText)) := halternate
    refine ⟨fun h => ?_, ?_⟩
    · have huses := h.1 (by rw [halt]; rfl)
      have hempty : port = [] := by
        rcases huses port (by rw [hsplit]) with hempty | hread
        · exact hempty
        · rw [hparsed] at hread
          cases hread
      have hother : url.otherSpelling = url.withAuthority (host ++ url.portText) := by
        unfold HttpUrl.otherSpelling
        rw [hsplit, hempty]
      have hsame := (h.2 huses).1
      rw [halt, hother] at hsame
      have hhost := List.append_cancel_right (withAuthority_inj (Option.some.inj hsame))
      rw [hauthority] at hhost
      exact absurd (congrArg List.length hhost) (by simp)
    · rintro (⟨htext', -⟩ | ⟨other, hother, -⟩)
      · rw [htext] at htext'
        rw [(List.cons.inj htext').2, hread] at hparsed
        cases hparsed
      · cases hother
  | some read =>
    rw [hparsed] at halternate
    have hnonempty : port ≠ [] := by
      intro hnil
      rw [hnil, parseU16_nil] at hparsed
      cases hparsed
    by_cases hdefault : read = url.port
    · have halt : defaultPortAlternateUrl authorities url.text = some (url.withAuthority host) :=
        halternate.trans (if_pos hdefault)
      have huses : url.UsesDefaultPort := by
        intro port' hport'
        rw [hsplit] at hport'
        cases hport'
        exact .inr (hdefault ▸ hparsed)
      have hother : url.otherSpelling = url.withAuthority host := by
        unfold HttpUrl.otherSpelling
        rw [hsplit]
        cases port with
        | nil => exact absurd rfl hnonempty
        | cons c rest => rfl
      rw [hother]
      constructor
      · intro h
        have hback := (h.2 huses).2
        have hhostParses : authorities.parses host = true := by
          by_contra hnot
          rw [alternate_withAuthority url hhost, (Bool.not_eq_true _).mp hnot] at hback
          cases hback
        rw [alternate_of_portless hlawful hhost hhostParses hhostPort] at hback
        have hsame := withAuthority_inj (Option.some.inj hback)
        rw [hauthority] at hsame
        exact .inl ⟨(List.append_cancel_left hsame).symm, hhostParses⟩
      · rintro (⟨htext', hhostParses⟩ | ⟨other, hother', hne⟩)
        · refine ⟨fun _ => huses, fun _ => ⟨halt, ?_⟩⟩
          rw [alternate_of_portless hlawful hhost hhostParses hhostPort, ← htext', ← hauthority]
          rfl
        · exact absurd ((Option.some.inj hother').symm.trans hdefault) hne
    · have halt : defaultPortAlternateUrl authorities url.text = none :=
        halternate.trans (if_neg hdefault)
      refine ⟨fun _ => .inr ⟨read, rfl, hdefault⟩, fun _ => ⟨fun hsome => ?_, fun huses => ?_⟩⟩
      · rw [halt] at hsome
        cases hsome
      · rcases huses port (by rw [hsplit]) with hempty | hread
        · exact absurd hempty hnonempty
        · rw [hparsed] at hread
          exact absurd (Option.some.inj hread) hdefault

theorem ignoresDefaultPort_iff (hlawful : authorities.Lawful)
    (hparses : authorities.parses url.authority = true) :
    IgnoresDefaultPort authorities globs url ↔ PlainPort authorities url := by
  unfold PlainPort
  cases hsplit : splitPort url.authority with
  | mk host port =>
    cases port with
    | none =>
      exact ⟨fun _ => trivial, fun _ =>
        ignoresDefaultPort_portless hlawful hparses (by rw [hsplit])⟩
    | some port => exact ignoresDefaultPort_iff_of_port hlawful hparses hsplit

end Spec

/-- An authority has a host and at most one colon for its port. -/
def sampleAuthorities : Authorities where
  parses authority :=
    (splitPort authority).1 ≠ [] && (splitPort (splitPort authority).1).2 = none
  port authority := (splitPort authority).2.bind parseU16

theorem sampleAuthorities_lawful : sampleAuthorities.Lawful where
  port_eq _ _ := rfl
  onePort authority host port hparses hsplit := by
    have hone := of_decide_eq_true ((Bool.and_eq_true _ _).mp hparses).2
    rwa [hsplit] at hone
  addPort authority port hparses hportless _ := by
    have hhost := of_decide_eq_true ((Bool.and_eq_true _ _).mp hparses).1
    rw [splitPort_of_none hportless] at hhost
    dsimp only [sampleAuthorities]
    rw [splitPort_digits authority fun c hc =>
      Nat.isDigit_of_mem_toDigits (by decide) (by decide) hc, hportless]
    simpa using hhost

/-- `http://h/` with another authority. -/
def sampleUrl (authority : Text) (h : authority.all (fun c => !endsAuthority c) = true) :
    HttpUrl where
  scheme := "http".toList
  authority := authority
  second := "/".toList
  port := 80
  portText := ":80".toList
  scheme_port := by decide
  authority_chars := keeps_authority h
  second_head := by
    intro c hc
    cases hc
    rfl

theorem ignoresDefaultPort_iff_sample :
    IgnoresDefaultPort sampleAuthorities sampleGlobset (sampleUrl "user@h:80".toList (by decide)) :=
  (ignoresDefaultPort_iff sampleAuthorities_lawful (by decide +kernel)).2
    (.inl ⟨by decide +kernel, by decide +kernel⟩)

/-- The empty port of `http://h:/` gets a second colon. -/
theorem empty_port_gets_second_colon : sampleAuthorities.Lawful ∧
    sampleAuthorities.parses "h:".toList = true ∧
    ¬ IgnoresDefaultPort sampleAuthorities sampleGlobset (sampleUrl "h:".toList (by decide)) := by
  refine ⟨sampleAuthorities_lawful, by decide +kernel, fun h => ?_⟩
  have huses : (sampleUrl "h:".toList (by decide)).UsesDefaultPort := by
    intro port hport
    have hempty : (splitPort "h:".toList).2 = some [] := by decide +kernel
    exact .inl (Option.some.inj (hport.symm.trans hempty))
  have halternate : defaultPortAlternateUrl sampleAuthorities "http://h:/".toList =
      some "http://h::80/".toList := by
    decide +kernel
  have hother := h.other huses
  rw [show (sampleUrl "h:".toList (by decide)).text = "http://h:/".toList from rfl,
    halternate] at hother
  exact absurd (Option.some.inj hother) (by decide +kernel)

end Fluxcope.Settings
