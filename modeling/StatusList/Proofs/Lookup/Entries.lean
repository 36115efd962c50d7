import StatusList.Proofs.Lookup.Annotations
import StatusList.Proofs.Lookup.Confinement
import StatusList.Proofs.Text.Blank

/-!
# Entries

To look up an entry is to look up the list that its reference names and to take the entry
out of what is found (`LooksUpInList`). That is so unless the reference is blank: a list is
not looked up by a blank identifier, but an entry is, and then its list is the one behind
the base with an empty name (`looksUpInList_iff`). With such a base, URLs are asked for and
entries are found by a reference that names nothing (`blank_reference_finds`).
-/

namespace StatusList

namespace Client

variable {c : Client} {t : Transport} {r : Reference} {reference : String}

/-- An entry is looked up as the list is that its reference names: the same URLs are asked
    for, and the entry is taken out of the list that is found. -/
structure LooksUpInList (c : Client) (t : Transport) (r : Reference) : Prop where
  asked : (c.status? r).asked t = (c.list (some r.uri)).asked t
  run : (c.status? r).run t = ((c.list (some r.uri)).run t).value?.bind (·.status? r.index)

/-- The URL of an empty name behind the base of a client. -/
def unnamed? (c : Client) : Option Url := do (urlBelow (← c.lists.base) "").toOption

/-- The entry at an index of the list that is found at a URL. -/
def entryAt? (c : Client) (t : Transport) (index : UInt32) (url : Url) : Option UInt8 := do
  (← (Document.read c.lists.verifier (← (t url).toOption)).toOption).status? index

theorem status?_of_isEmpty {d : Document} (h : d.isEmpty = true) (index : UInt32) :
    d.status? index = none := by
  have htotal : d.total = 0 := by simpa [Document.isEmpty] using h
  exact Document.status?_eq_none_iff.2 (htotal ▸ Nat.zero_le _)

theorem asked_status? (c : Client) (t : Transport) (r : Reference) :
    (c.status? r).asked t = (c.lists.resolve r.uri).toOption.toList := by
  rw [status?, Fetching.asked_bind, Fetching.asked_pure, List.append_nil, asked_fetch]

/-- An entry is one of the list at the URL of its reference. -/
theorem run_status?_eq_bind (c : Client) (t : Transport) (r : Reference) :
    (c.status? r).run t = (c.lists.resolve r.uri).toOption.bind (c.entryAt? t r.index) := by
  have hentry : ∀ attempt : Except LookupError Document,
      (Outcome.ofExcept Document.isEmpty attempt).value?.bind (·.status? r.index) =
        attempt.toOption.bind (·.status? r.index) := by
    rintro (cause | d)
    · rfl
    · rw [Outcome.ofExcept, Outcome.foundUnless]
      split
      · next h => exact (status?_of_isEmpty h r.index).symm
      · rfl
  rw [run_status?, ListSource.fetch, Fetching.run_bind, Fetching.run_pure, hentry]
  generalize hrun : (c.lists.tryFetch r.uri).run t = attempt
  cases ((c.lists.looksUp r.uri t).attempted attempt).1 hrun with
  | unresolved hurl => simp [hurl, Except.toOption]
  | notFetched hurl hfound => simp [hurl, entryAt?, hfound, Except.toOption]
  | unread hurl hfound hread => simp [hurl, entryAt?, hfound, hread, Except.toOption]
  | read hurl hfound hread => simp [hurl, entryAt?, hfound, hread, Except.toOption]

theorem list_of_blank (h : Text.allBlank reference = true) :
    c.list (some reference) = pure .invalid := by
  have hmissing : identifier? (some reference) = none := by
    simpa [identifier?, Text.allBlank] using h
  rw [list, hmissing]

/-- Blanks around an identifier make no difference. -/
theorem list_of_not_blank (h : Text.allBlank reference = false) :
    c.list (some reference) = c.lists.fetch reference := by
  have hidentifier : identifier? (some reference) = some (Text.trim reference) := by
    simpa [identifier?, Text.allBlank] using h
  rw [list, hidentifier]
  simp only [ListSource.fetch, ListSource.tryFetch, ListSource.resolve, Text.trim_trim]

theorem resolve_of_blank (h : Text.allBlank reference = true) :
    (c.lists.resolve reference).toOption = c.unnamed? := by
  have hempty : Text.trim reference = "" := by simpa [Text.allBlank] using h
  have hnone : ListSource.webUrl? "" = none := by decide +kernel
  rw [ListSource.resolve, hempty, hnone, unnamed?]
  cases c.lists.base <;> rfl

/-- An entry is looked up as its list is, except by a blank reference where there is a base:
    then the list is missing, but the entry is looked up behind the base. -/
theorem looksUpInList_iff (c : Client) (t : Transport) (r : Reference) :
    (LooksUpInList c t r ↔ (Text.allBlank r.uri = true → c.unnamed? = none)) ∧
      (Text.allBlank r.uri = true →
        (c.list (some r.uri)).run t = .invalid ∧ (c.list (some r.uri)).asked t = [] ∧
        (c.status? r).run t = c.unnamed?.bind (c.entryAt? t r.index) ∧
        (c.status? r).asked t = c.unnamed?.toList) := by
  cases hblank : Text.allBlank r.uri with
  | false =>
    have hlist := list_of_not_blank (c := c) hblank
    refine ⟨⟨fun _ => nofun, fun _ => ⟨?_, ?_⟩⟩, nofun⟩
    · rw [hlist, asked_status?, asked_fetch]
    · rw [hlist, run_status?]
  | true =>
    have hlist := list_of_blank (c := c) hblank
    have hasked : (c.status? r).asked t = c.unnamed?.toList := by
      rw [asked_status?, resolve_of_blank hblank]
    have hrun : (c.status? r).run t = c.unnamed?.bind (c.entryAt? t r.index) := by
      rw [run_status?_eq_bind, resolve_of_blank hblank]
    refine ⟨⟨fun h _ => ?_, fun h => ⟨?_, ?_⟩⟩, fun _ => ⟨?_, ?_, hrun, hasked⟩⟩
    · have hnil := h.asked
      rw [hasked, hlist, Fetching.asked_pure] at hnil
      exact Option.toList_eq_nil_iff.1 hnil
    · rw [hasked, hlist, h rfl, Fetching.asked_pure, Option.toList_none]
    · rw [hrun, hlist, h rfl, Fetching.run_pure]
      rfl
    · rw [hlist, Fetching.run_pure]
    · rw [hlist, Fetching.asked_pure]

/-- A list of width one, the first entry of which is one. -/
def trialBody : String :=
  "\x7b\"iss\":\"i\",\"sub\":\"s\",\"iat\":1,"
    ++ "\"status_list\":\x7b\"bits\":1,\"lst\":\"eNrbuRgAAhcBXQ\"\x7d\x7d"

/-- The only thing that is published is a list behind the base with an empty name. -/
def unnamedList : Transport := fun url =>
  if url.text = "https://base.example/v1/lists/" then .ok trialBody.toUTF8
  else .error (.status url 404 "")

/-- A client with a base for lists. -/
def trialClient : Client := ⟨⟨some listsBase, none⟩, ⟨none⟩, none, true⟩

/-- By a blank reference an entry is found in a list that is missing, and URLs are asked for
    that the list is not asked for at. -/
theorem blank_reference_finds :
    ((trialClient.status? ⟨" ", 0⟩).run unnamedList = some 1 ∧
      ((trialClient.status? ⟨" ", 0⟩).asked unnamedList).map Url.text =
        ["https://base.example/v1/lists/"]) ∧
    (trialClient.list (some " ")).run unnamedList = .invalid ∧
    (trialClient.list (some " ")).asked unnamedList = [] ∧
    ¬LooksUpInList trialClient unnamedList ⟨" ", 0⟩ := by
  have hrun : (trialClient.status? ⟨" ", 0⟩).run unnamedList = some 1 := by decide +kernel
  have hinvalid : (trialClient.list (some " ")).run unnamedList = .invalid := by decide +kernel
  refine ⟨⟨hrun, by decide +kernel⟩, hinvalid, by decide +kernel, fun h => ?_⟩
  have hsame := h.run
  rw [hrun, hinvalid] at hsame
  exact nomatch hsame

end Client

end StatusList
