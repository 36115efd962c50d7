import StatusList.Proofs.Basic
import StatusList.Url.Reader

/-!
# Schemes

The scheme of a URL is what stands before the first colon of its text, in lower case
(`scheme_of_parse?`). A URL over HTTP always has a root (`exists_rooted_of_parse?`), as has every
URL that is not without an authority.
-/

namespace StatusList.Url

/-- What stands before the first colon of a text, where blanks around it and line breaks in it
    do not count. -/
def writtenScheme (text : String) : List Char := (cut ':' (counted (trimmed text.toList))).1

theorem kind_of_isHttp {url : Url} (h : url.isHttp = true) : url.kind = .special := by
  have hscheme : url.scheme = "http" ∨ url.scheme = "https" := by simpa [isHttp] using h
  rcases hscheme with h | h <;> rw [kind, h] <;> decide

theorem parse?_eq_some_iff {text : String} {url : Url} :
    parse? text = some url ↔ parse text = .ok url :=
  toOption_eq_some_iff

theorem readScheme_eq_ok {text rest : List Char} {scheme : String}
    (h : readScheme text = .ok (scheme, rest)) :
    scheme = .ofList ((cut ':' text).1.map Char.toLower) := by
  rw [readScheme] at h
  split at h
  · next c letters rest' hcut =>
    split at h
    · rw [Except.ok.injEq, Prod.mk.injEq] at h
      rw [hcut, ← h.1]
    · cases h
  · cases h

/-- What is read of a text: its scheme first, and then the rest as the scheme says. -/
theorem exists_of_parse {text : String} {url : Url} (h : parse text = .ok url) :
    (∃ rest, readScheme (counted (trimmed text.toList)) = .ok (url.scheme, rest)) ∧
      (url.kind = .other ∨ ∃ segments, url.path = .rooted segments) := by
  simp only [parse, bind_eq_ok_iff] at h
  obtain ⟨⟨scheme, rest⟩, hscheme, h⟩ := h
  split at h
  · obtain ⟨file, -, h⟩ := bind_eq_ok_iff.1 h
    obtain rfl := Except.ok.inj h
    exact ⟨⟨rest, hscheme⟩, .inr ⟨_, rfl⟩⟩
  · obtain ⟨authority, -, h⟩ := bind_eq_ok_iff.1 h
    obtain rfl := Except.ok.inj h
    exact ⟨⟨rest, hscheme⟩, .inr ⟨_, rfl⟩⟩
  · next hkind =>
    split at h
    · obtain ⟨authority, -, h⟩ := bind_eq_ok_iff.1 h
      obtain rfl := Except.ok.inj h
      exact ⟨⟨rest, hscheme⟩, .inr ⟨_, rfl⟩⟩
    · obtain rfl := Except.ok.inj h
      exact ⟨⟨rest, hscheme⟩, .inl hkind⟩

/-- The scheme of a URL is the one that is written, in lower case. -/
theorem scheme_of_parse? {text : String} {url : Url} (h : parse? text = some url) :
    url.scheme = .ofList ((writtenScheme text).map Char.toLower) := by
  obtain ⟨⟨rest, hscheme⟩, -⟩ := exists_of_parse (parse?_eq_some_iff.1 h)
  exact readScheme_eq_ok hscheme

/-- A URL over HTTP has a root. -/
theorem exists_rooted_of_parse? {text : String} {url : Url} (h : parse? text = some url)
    (hhttp : url.isHttp = true) : ∃ segments, url.path = .rooted segments := by
  obtain ⟨-, hroot⟩ := exists_of_parse (parse?_eq_some_iff.1 h)
  refine hroot.resolve_left fun hother => ?_
  rw [kind_of_isHttp hhttp] at hother
  cases hother

end StatusList.Url
