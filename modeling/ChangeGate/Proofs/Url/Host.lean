import ChangeGate.Proofs.Url.Path

/-! # Schemes and hosts

A host of the web is never empty, whether it is a name, a number or stands between brackets
(`host?_ne_nil`), and no address is read without it. So an address whose scheme is one of the web
always names a host (**`hasHost_of_ofText`**). A text that starts with a slash has no scheme, which
starts with a letter, and so is no address, whatever follows (**`ofText_of_slash`**). -/

namespace ChangeGate.Url

/-! ## (1) Addresses of the web name a host -/

/-- A host is not empty. -/
theorem host?_ne_nil {t host : Text} (h : host? true t = .ok host) : host ≠ [] := by
  unfold host? at h
  split at h
  · -- what stands between brackets keeps them
    split at h
    · rw [← Except.ok.inj h]
      simp [lower]
    · exact absurd h (by simp)
  · rw [if_neg (by simp)] at h
    dsimp only at h
    split at h
    · exact absurd h (by simp)
    rename_i hname
    split at h
    · exact absurd h (by simp)
    split at h
    · -- the four numbers of an address have points between them
      split at h
      · rw [← Except.ok.inj h]
        simp [numbersText, Text.join]
      · exact absurd h (by simp)
    · rw [← Except.ok.inj h]
      exact hname

/-- An authority of the web is not empty, as it holds a host. -/
theorem authority?_ne_nil {scheme t a : Text} (hspecial : isSpecial scheme = true)
    (h : authority? scheme t = .ok a) : a ≠ [] := by
  unfold authority? at h
  dsimp only at h
  split at h
  · exact absurd h (by simp)
  · rw [hspecial] at h
    cases hhost : host? true (splitPort (splitLast '@' t).2).1 with
    | error f =>
      rw [hhost] at h
      exact absurd h (by simp [bind, Except.bind])
    | ok host =>
      cases hport : portText scheme (splitPort (splitLast '@' t).2).2 with
      | error f =>
        rw [hhost, hport] at h
        exact absurd h (by simp [bind, Except.bind])
      | ok port =>
        rw [hhost, hport] at h
        rw [← Except.ok.inj h]
        simp [host?_ne_nil hhost]

/-- The parts of an address of the web name a host. -/
theorem hasHost_of_ofParts {scheme hierarchy : Text} {query fragment : Option Text} {u : Url}
    (h : ofParts scheme hierarchy query fragment = .ok u) (hspecial : isSpecial u.scheme = true) :
    u.hasHost = true := by
  rw [scheme_of_ofParts h] at hspecial
  have hfile : scheme ≠ fileScheme := by
    rintro rfl
    exact absurd hspecial (by decide)
  unfold ofParts at h
  dsimp only at h
  -- an address of a file may do without a host, and its scheme is none of the web
  rw [if_neg hfile, hspecial, Bool.true_or, if_pos rfl] at h
  cases hauthority : authority? scheme
      ((hierarchy.dropWhile isSlash).takeWhile fun c => !endsAuthority true c) with
  | error f =>
    rw [hauthority] at h
    exact absurd h (by simp [Except.map])
  | ok a =>
    rw [hauthority] at h
    rw [← Except.ok.inj h]
    simp [hasHost, authority?_ne_nil hspecial hauthority]

/-- **An address of the web names a host.** -/
theorem hasHost_of_ofText {t : Text} {u : Url} (h : ofText t = .ok u)
    (hspecial : isSpecial u.scheme = true) : u.hasHost = true := by
  unfold ofText at h
  split at h
  · exact absurd h (by simp)
  · exact hasHost_of_ofParts h hspecial

/-! ## (2) Addresses without a scheme -/

/-- A slash that starts a text is not dropped when the text is cleaned. -/
theorem cleaned_of_slash (t : Text) : ∃ rest, cleaned ('/' :: t) = '/' :: rest := by
  have hstart : ('/' :: t).dropWhile (fun c : Char => decide (c.toNat ≤ 0x20)) = '/' :: t := by
    rw [List.dropWhile_cons_of_neg (by simp)]
  -- from the other end, the slash is the last character that could be dropped
  have hend : ∃ kept, ('/' :: t).reverse.dropWhile (fun c : Char => decide (c.toNat ≤ 0x20)) =
      kept ++ ['/'] := by
    rw [List.reverse_cons, List.dropWhile_append]
    split
    · exact ⟨[], by rw [List.dropWhile_cons_of_neg (by simp), List.nil_append]⟩
    · exact ⟨_, rfl⟩
  obtain ⟨kept, hkept⟩ := hend
  refine ⟨kept.reverse.filter fun c => c != '\t' && c != '\n' && c != '\x0d', ?_⟩
  rw [cleaned, hstart, hkept, List.reverse_append, List.reverse_singleton, List.singleton_append,
    List.filter_cons_of_pos (by decide)]

/-- **A text that starts with a slash is no address.** -/
theorem ofText_of_slash (t : Text) : ofText ('/' :: t) = .error .relative := by
  obtain ⟨rest, hcleaned⟩ := cleaned_of_slash t
  have hscheme : scheme? ('/' :: rest) = none := by
    have hchar : isSchemeChar '/' = false := by decide
    rw [scheme?, List.takeWhile_cons_of_neg (by simp [hchar])]
  rw [ofText, hcleaned, hscheme]

end ChangeGate.Url
