/-
Sioxx.EngineIO.ProxyTheorems — which proxies a transport accepts.

  * `parseWsUrl_some` — a URL that is accepted is a scheme, `://`, an
    authority without a slash, and nothing or what begins with one.
  * `makeProxyConfig_iff` — a proxy is `http://authority` or
    `http://authority/`, without a query or a fragment.
  * `makeProxyConfig_credentials` — the header has the credentials and
    nothing else.
-/
import Sioxx.EngineIO.PollingTheorems
import Sioxx.EngineIO.Proxy
import Sioxx.EngineIO.UrlTheorems

namespace Sioxx

open Lib

/-! ## What `parse_ws_url` has accepted -/

/-- A URL comes apart at a `://` and at the first slash behind it. -/
theorem parseWsUrl_some {url : Bytes} {p : UrlParts} (h : parseWsUrl url = .ok p) :
    ∃ authority rest, slash ∉ authority ∧ (rest = [] ∨ rest.head? = some slash) ∧
      url = p.scheme ++ (schemeSeparator ++ (authority ++ rest)) ∧
      findText schemeSeparator url = some p.scheme.length ∧
      p = partsOf p.scheme authority rest := by
  unfold parseWsUrl at h
  cases hfind : findText schemeSeparator url with
  | none =>
    rw [hfind] at h
    cases h
  | some k =>
    obtain ⟨behind, hurl⟩ := findText_some hfind
    have hk : (url.take k).length = k := by
      rw [List.length_take, Nat.min_eq_left]
      by_contra hlong
      rw [List.take_of_length_le (by omega)] at hurl
      have hlength := congrArg List.length hurl
      have hthree : schemeSeparator.length = 3 := rfl
      simp only [List.length_append, hthree] at hlength
      omega
    generalize hscheme : url.take k = scheme at hk hurl
    have hpre : (scheme ++ schemeSeparator).length = k + 3 := by
      rw [List.length_append, hk]
      rfl
    have hsplit : url = scheme ++ schemeSeparator ++ behind := by
      rw [List.append_assoc]
      exact hurl
    have hdrop : url.drop (k + 3) = behind := by
      rw [hsplit, ← hpre, drop_length_append]
    simp only [hfind] at h
    cases hpath : findFrom url slash (k + 3) with
    | none =>
      simp only [hpath, hdrop, hscheme, Except.ok.injEq] at h
      subst h
      have hslash : slash ∉ behind := by
        rw [hsplit, ← hpre] at hpath
        exact notMem_of_findFrom hpath
      refine ⟨behind, [], hslash, .inl rfl, ?_, ?_, rfl⟩
      · rw [List.append_nil]
        exact hurl
      · rw [hk]
    | some i =>
      have hat := hpath
      rw [hsplit, ← hpre] at hat
      obtain ⟨mid, rest, rfl, hmid, rfl⟩ := findFrom_some hat
      rw [hpre] at hpath
      have htarget : url.drop (k + 3 + mid.length) = slash :: rest := by
        rw [← List.drop_drop, hdrop, drop_length_append]
      simp only [hpath, substr, hdrop, htarget, hscheme, Nat.add_sub_cancel_left, List.take_left,
        Except.ok.injEq] at h
      subst h
      exact ⟨mid, slash :: rest, hmid, .inr rfl, hurl, by rw [hk], rfl⟩

/-! ## The proxies that are accepted -/

/-- The URI of a proxy: an authority, and at most a slash behind it. -/
structure ProxyUri (uri authority : Bytes) : Prop where
  slash : slash ∉ authority
  query : byteOf '?' ∉ authority
  fragment : byteOf '#' ∉ authority
  uri : uri = ascii "http" ++ (schemeSeparator ++ (authority ++ [])) ∨
    uri = ascii "http" ++ (schemeSeparator ++ (authority ++ [Sioxx.slash]))

theorem hasQueryOrFragment_false {uri : Bytes} {i : Nat} :
    hasQueryOrFragment uri i = false ↔ byteOf '?' ∉ uri.drop i ∧ byteOf '#' ∉ uri.drop i := by
  rw [hasQueryOrFragment, List.any_eq_false]
  constructor
  · intro h
    refine ⟨fun hmem => h _ hmem (by decide), fun hmem => h _ hmem (by decide)⟩
  · rintro ⟨hquery, hfragment⟩ b hb
    rw [Bool.or_eq_true, beq_iff_eq, beq_iff_eq, not_or]
    exact ⟨fun h => hquery (h ▸ hb), fun h => hfragment (h ▸ hb)⟩

/-- **The proxies that are accepted** are `http://authority` and
`http://authority/`; host and port are those `parse_ws_url` finds in the
authority. -/
theorem makeProxyConfig_iff (uri username password : Bytes) (config : ProxyConfig) :
    makeProxyConfig uri username password = .ok (some config) ↔
      ∃ authority, ProxyUri uri authority ∧
        config = { endpoint := partsOf (ascii "http") authority []
                   authorization := basicAuthorization username password } := by
  constructor
  · intro h
    unfold makeProxyConfig at h
    split at h
    · cases h
    split at h
    · cases h
    rename_i hquery
    split at h
    · cases h
    rename_i endpoint hparse
    split at h
    · cases h
    rename_i hscheme
    split at h
    · cases h
    rename_i htarget
    obtain ⟨authority, rest, hslash, hrest, huri, hfind, hparts⟩ := parseWsUrl_some hparse
    cases h
    simp only [ne_eq, not_not] at hscheme htarget
    have hbehind : uri.drop (endpoint.scheme.length + 3) = authority ++ rest := by
      conv_lhs => rw [huri]
      rw [← List.drop_drop, drop_length_append]
      rfl
    rw [hfind, Option.any_some, Bool.not_eq_true, hasQueryOrFragment_false, hbehind,
      List.mem_append, List.mem_append, not_or, not_or] at hquery
    rw [hscheme] at huri hparts
    have hroot : rest = [] ∨ rest = [slash] := by
      rw [hparts, partsOf] at htarget
      cases rest with
      | nil => exact .inl rfl
      | cons b rest => exact .inr htarget
    refine ⟨authority, ⟨hslash, hquery.1.1, hquery.2.1, ?_⟩, ?_⟩
    · rcases hroot with rfl | rfl
      · exact .inl huri
      · exact .inr huri
    · rw [hparts]
      rcases hroot with rfl | rfl <;> rfl
  · rintro ⟨authority, ⟨hslash, hquery, hfragment, huri⟩, rfl⟩
    have hhttp : ¬ schemeSeparator <:+: ascii "http" := by decide
    obtain ⟨rest, hrest, huri⟩ : ∃ rest, (rest = [] ∨ rest = [slash]) ∧
        uri = ascii "http" ++ (schemeSeparator ++ (authority ++ rest)) :=
      huri.elim (fun h => ⟨[], .inl rfl, h⟩) fun h => ⟨[slash], .inr rfl, h⟩
    have hfind : findText schemeSeparator uri = some (ascii "http").length := by
      rw [huri]
      exact findText_scheme hhttp _
    have hclean : hasQueryOrFragment uri ((ascii "http").length + 3) = false := by
      have hbehind : uri.drop ((ascii "http").length + 3) = authority ++ rest := by
        rw [huri, ← List.drop_drop, drop_length_append]
        rfl
      rw [hasQueryOrFragment_false, hbehind, List.mem_append, List.mem_append, not_or, not_or]
      rcases hrest with rfl | rfl
      · exact ⟨⟨hquery, List.not_mem_nil⟩, hfragment, List.not_mem_nil⟩
      · exact ⟨⟨hquery, by decide⟩, hfragment, by decide⟩
    have hparse : parseWsUrl uri = .ok (partsOf (ascii "http") authority []) := by
      rw [huri, parseWsUrl_parts hhttp hslash (hrest.imp_right fun h => h ▸ rfl)]
      rcases hrest with rfl | rfl <;> rfl
    have hne : uri.isEmpty = false := by
      rw [huri]
      rfl
    unfold makeProxyConfig
    rw [hfind, Option.any_some, hclean, hparse, hne]
    rfl

/-! ## The credentials -/

/-- There is a header exactly if there are credentials. -/
theorem basicAuthorization_nil {username password : Bytes} :
    basicAuthorization username password = [] ↔ username = [] ∧ password = [] := by
  unfold basicAuthorization
  cases username with
  | cons b rest => simp [ascii]
  | nil =>
    cases password with
    | cons b rest => simp [ascii]
    | nil => simp

/-- The proxy decodes the credentials. -/
theorem base64Decode_basicAuthorization {username password : Bytes}
    (h : username ≠ [] ∨ password ≠ []) :
    base64Decode ((basicAuthorization username password).drop (ascii "Basic ").length)
      = some (username ++ ascii ":" ++ password) := by
  have hgiven : (!username.isEmpty || !password.isEmpty) = true := by
    rw [Bool.or_eq_true, Bool.not_eq_true', Bool.not_eq_true', List.isEmpty_eq_false_iff,
      List.isEmpty_eq_false_iff]
    exact h
  rw [basicAuthorization, if_pos hgiven, drop_length_append, base64Decode_encode]

theorem basicAuthorization_inj {username password username' password' : Bytes}
    (hcolon : colon ∉ username) (hcolon' : colon ∉ username')
    (h : basicAuthorization username password = basicAuthorization username' password') :
    username = username' ∧ password = password' := by
  by_cases hnone : username = [] ∧ password = []
  · have hempty := basicAuthorization_nil.mp (h.symm.trans (basicAuthorization_nil.mpr hnone))
    exact ⟨hnone.1.trans hempty.1.symm, hnone.2.trans hempty.2.symm⟩
  · have hnone' : ¬ (username' = [] ∧ password' = []) :=
      fun hempty => hnone (basicAuthorization_nil.mp (h.trans (basicAuthorization_nil.mpr hempty)))
    have hcode := base64Decode_basicAuthorization (not_and_or.mp hnone)
    have hcode' := base64Decode_basicAuthorization (not_and_or.mp hnone')
    rw [h, hcode', Option.some.injEq] at hcode
    have hread := splitFirst_append hcolon password
    have hread' := splitFirst_append hcolon' password'
    have htext : username' ++ colon :: password' = username ++ colon :: password := by
      rw [← List.singleton_append, ← List.append_assoc]
      exact hcode.trans (by rw [List.append_assoc]; rfl)
    rw [htext, hread] at hread'
    exact Prod.mk.inj hread'

theorem makeProxyConfig_authorization {uri username password : Bytes} {config : ProxyConfig}
    (h : makeProxyConfig uri username password = .ok (some config)) :
    config.authorization = basicAuthorization username password := by
  unfold makeProxyConfig at h
  split at h
  · cases h
  split at h
  · cases h
  split at h
  · cases h
  split at h
  · cases h
  split at h
  · cases h
  cases h
  rfl

/-- **The header is the credentials.** There is none exactly if neither a
user name nor a password is given; a proxy that decodes it reads both with a
colon between; and two configurations that send the same have the same credentials, if the
user names have no colon. -/
theorem makeProxyConfig_credentials {uri username password : Bytes} {config : ProxyConfig}
    (h : makeProxyConfig uri username password = .ok (some config)) :
    (config.authorization = [] ↔ username = [] ∧ password = []) ∧
      (username ≠ [] ∨ password ≠ [] → ∃ code, config.authorization = ascii "Basic " ++ code ∧
        base64Decode code = some (username ++ ascii ":" ++ password)) ∧
      ∀ uri' username' password' config',
        makeProxyConfig uri' username' password' = .ok (some config') → colon ∉ username →
        colon ∉ username' → config.authorization = config'.authorization →
        username = username' ∧ password = password' := by
  have hauthorization := makeProxyConfig_authorization h
  refine ⟨?_, fun hgiven => ?_, fun uri' username' password' config' h' hcolon hcolon' hsame => ?_⟩
  · rw [hauthorization]
    exact basicAuthorization_nil
  · have hdecoded := base64Decode_basicAuthorization hgiven
    have hne : basicAuthorization username password ≠ [] :=
      fun hnone => not_and_or.mpr hgiven (basicAuthorization_nil.mp hnone)
    unfold basicAuthorization at hauthorization hdecoded hne
    split at hne
    · rename_i hsome
      rw [if_pos hsome] at hauthorization
      rw [if_pos hsome, drop_length_append] at hdecoded
      exact ⟨_, hauthorization, hdecoded⟩
    · exact absurd rfl hne
  · rw [hauthorization, makeProxyConfig_authorization h'] at hsame
    exact basicAuthorization_inj hcolon hcolon' hsame

/-- A user name with its password. -/
theorem makeProxyConfig_credentials_userPassword :
    ∃ config, makeProxyConfig (ascii "http://p") (ascii "u") (ascii "pw") = .ok (some config) ∧
      ∃ code, config.authorization = ascii "Basic " ++ code ∧
        base64Decode code = some (ascii "u" ++ ascii ":" ++ ascii "pw") := by
  obtain ⟨config, hconfig⟩ : ∃ config,
      makeProxyConfig (ascii "http://p") (ascii "u") (ascii "pw") = .ok (some config) :=
    ⟨_, rfl⟩
  exact ⟨config, hconfig, (makeProxyConfig_credentials hconfig).2.1 (.inl (by decide))⟩

end Sioxx
