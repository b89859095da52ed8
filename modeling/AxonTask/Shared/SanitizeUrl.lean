import AxonTask.Lib.Search

/-!
# Redis URLs without credentials (`redis/client.rs` of `axontask-shared`)

`sanitize_url` looks for the at sign before the host from the left, and a password may contain at
signs.
-/

namespace AxonTask

open Lib

/-- `sanitize_url`.  Positions are counted in characters; the delimiters are ASCII. -/
def sanitizeUrl (url : String) : String :=
  let chars := url.toList
  match chars.findIdx? fun c => decide (c = '@') with
  | some atPos =>
    match Search.find "://".toList chars with
    | some schemeEnd =>
      let scheme := chars.take (schemeEnd + 3)
      let host := chars.drop (atPos + 1)
      String.ofList (scheme ++ "***:***@".toList ++ host)
    | none => url
  | none => url

/-- `RedisStats`. -/
structure RedisStats where
  healthy : Bool
  url : String
deriving DecidableEq

/-- `RedisClient::stats`, for the answer to the ping, which is `none` when it fails. -/
def RedisStats.of (url : String) (ping : Option Bool) : RedisStats where
  healthy := ping.getD false
  url := sanitizeUrl url

namespace SanitizeUrl

/-- The URL with the given parts. -/
def urlOf (scheme userInfo host : String) : String := scheme ++ "://" ++ userInfo ++ "@" ++ host

/-- The user information from its first at sign on. -/
def fromFirstAt (userInfo : String) : String :=
  String.ofList (userInfo.toList.dropWhile fun c => decide (c ≠ '@'))

lemma fromFirstAt_eq_empty_iff {userInfo : String} :
    fromFirstAt userInfo = "" ↔ '@' ∉ userInfo.toList := by
  rw [← Search.dropWhile_ne_eq_nil_iff, fromFirstAt, ← String.toList_inj, String.toList_ofList]
  rfl

/-- **What is left of a URL**: the user information up to its first at sign is replaced. -/
lemma sanitizeUrl_urlOf {scheme : String} (hcolon : ':' ∉ scheme.toList)
    (hat : '@' ∉ scheme.toList) (userInfo host : String) :
    sanitizeUrl (urlOf scheme userInfo host) =
      scheme ++ "://***:***" ++ fromFirstAt userInfo ++ ("@" ++ host) := by
  -- the scheme has neither of the delimiters, so its end is found, and the at sign behind it
  have hscheme : (urlOf scheme userInfo host).toList =
      scheme.toList ++ ("://".toList ++ (userInfo.toList ++ '@' :: host.toList)) := by
    simp [urlOf]
  have hchars : (urlOf scheme userInfo host).toList =
      (scheme.toList ++ "://".toList ++ userInfo.toList) ++ '@' :: host.toList := by
    simp [urlOf]
  have hfind : Search.find "://".toList (urlOf scheme userInfo host).toList =
      some scheme.toList.length := by
    rw [hscheme]
    exact Search.find_append hcolon _
  obtain ⟨i, hi, hdrop⟩ := Search.exists_findIdx?_append '@'
    (scheme.toList ++ "://".toList ++ userInfo.toList) host.toList
  have htake : (urlOf scheme userInfo host).toList.take (scheme.toList.length + 3) =
      scheme.toList ++ "://".toList := by
    rw [hscheme, ← List.append_assoc]
    exact List.take_left' (by simp)
  have hleft : (scheme.toList ++ "://".toList ++ userInfo.toList).dropWhile
      (fun c => decide (c ≠ '@')) = userInfo.toList.dropWhile fun c => decide (c ≠ '@') := by
    rw [List.dropWhile_append_of_pos]
    intro c hc
    have hne : c ≠ '@' := by
      rintro rfl
      simp [hat] at hc
    simpa using hne
  rw [hleft, ← hchars] at hdrop
  rw [← hchars] at hi
  rw [sanitizeUrl, hi, hfind]
  simp only [htake]
  have hright : (scheme ++ "://***:***" ++ fromFirstAt userInfo ++ ("@" ++ host)).toList =
      scheme.toList ++ "://***:***".toList ++
        (userInfo.toList.dropWhile (fun c => decide (c ≠ '@')) ++ '@' :: host.toList) := by
    simp [fromFirstAt]
  rw [← String.toList_inj, String.toList_ofList, hright, ← hdrop]
  simp

/-- Texts between the same texts. -/
lemma append_cancel {a b s t : String} : a ++ s ++ b = a ++ t ++ b ↔ s = t := by
  rw [← String.toList_inj, ← String.toList_inj]
  simp

/-- **When no credential is left**: the URL is the documented one exactly when the user
information has no at sign, and the URLs and the statistics for two credentials are equal exactly
when the credentials do not differ from their first at signs on. -/
theorem sanitizeUrl_iff (scheme : String) (hcolon : ':' ∉ scheme.toList)
    (hat : '@' ∉ scheme.toList) (host : String) :
    (∀ userInfo, sanitizeUrl (urlOf scheme userInfo host) = scheme ++ "://***:***@" ++ host ↔
      '@' ∉ userInfo.toList) ∧
    (∀ u₁ u₂, sanitizeUrl (urlOf scheme u₁ host) = sanitizeUrl (urlOf scheme u₂ host) ↔
      fromFirstAt u₁ = fromFirstAt u₂) ∧
    ∀ u₁ u₂ ping, RedisStats.of (urlOf scheme u₁ host) ping =
      RedisStats.of (urlOf scheme u₂ host) ping ↔ fromFirstAt u₁ = fromFirstAt u₂ := by
  have hspec := fun userInfo => sanitizeUrl_urlOf hcolon hat userInfo host
  have htwo : ∀ u₁ u₂, sanitizeUrl (urlOf scheme u₁ host) = sanitizeUrl (urlOf scheme u₂ host) ↔
      fromFirstAt u₁ = fromFirstAt u₂ := by
    intro u₁ u₂
    rw [hspec, hspec, append_cancel]
  refine ⟨?_, htwo, ?_⟩
  · intro userInfo
    have hclean : scheme ++ "://***:***@" ++ host =
        scheme ++ "://***:***" ++ "" ++ ("@" ++ host) := by
      rw [← String.toList_inj]
      simp
    rw [hspec, hclean, append_cancel, fromFirstAt_eq_empty_iff]
  · intro u₁ u₂ ping
    rw [← htwo]
    simp [RedisStats.of]

/-- The part of a password behind its at sign is left. -/
theorem not_sanitized_password :
    sanitizeUrl (urlOf "redis" "user:p@ss" "localhost:6379") ≠
        "redis" ++ "://***:***@" ++ "localhost:6379" ∧
      sanitizeUrl (urlOf "redis" "user:p@ss" "localhost:6379") ≠
        sanitizeUrl (urlOf "redis" "user:p@ssword" "localhost:6379") := by
  constructor
  · decide +kernel
  · decide +kernel

/-- The condition for a password without at signs. -/
theorem sanitizeUrl_iff_redis :
    sanitizeUrl (urlOf "redis" "user:pass" "localhost:6379") = "redis" ++ "://***:***@" ++
      "localhost:6379" :=
  ((sanitizeUrl_iff "redis" (by decide) (by decide) "localhost:6379").1 "user:pass").2 (by decide)

end SanitizeUrl

end AxonTask
