import GenericApp.Frontend.ApiClient

/-!
# Whether the two clients do the same

Both clients should send the same requests and fail alike. They do exactly if three things hold of the call
(`clients_agree_iff`). The body says by itself what it is, or the caller says it: the streaming client does
not name the type of a text, which then goes out as `text/plain`. The caller does not abort between the
answer and the end of its body, where the error has a code: only the streaming client is still listening.
And collecting the field errors does not throw, which only the other client does.
-/

namespace GenericApp.Frontend

open Py

namespace Browser

variable (b : Browser) (options : RequestInit)

/-! ### What decides -/

/-- The answer that an attempt gets to see. -/
def delivered (attempt : ℕ) : Option ServerResponse :=
  if refused options.method options.body || aborted options.signal ⟨attempt, .fetching⟩ then none
  else b.answers attempt

/-- The response is answered by a refresh. -/
def Expired (response : ServerResponse) : Prop :=
  response.status = 401 ∧ aborted options.signal ⟨0, .answered⟩ = false

/-- The refresh gives a new session, and the caller is still waiting for it. -/
def Refreshes : Prop :=
  b.authSessionActive = true ∧ aborted options.signal ⟨0, .refreshing⟩ = false ∧ b.refreshed = true

/-- The answer with which the call ends. -/
def Last (attempt : ℕ) (response : ServerResponse) : Prop :=
  (attempt = 0 ∧ b.delivered options 0 = some response ∧ ¬ Expired options response) ∨
    (attempt = 1 ∧ b.delivered options 1 = some response ∧
      ∃ first, b.delivered options 0 = some first ∧ Expired options first ∧ b.Refreshes options)

/-- The type of the body is known without the help of the client, or nothing goes out. -/
def Typed : Prop :=
  (∀ text, options.body ≠ some (.string text)) ∧ options.body ≠ some .null ∨
    (Headers.ofInit options.headers).has "Content-Type" = true ∨
    refused options.method options.body = true ∨ aborted options.signal ⟨0, .starting⟩ = true

/-- The body of an error is read alike: its field errors can be collected, and if the caller aborts while
it is read, it has no code. -/
def ReadAlike (attempt : ℕ) (response : ServerResponse) : Prop :=
  let error := response.json.getD (.object [])
  response.ok = false → aborted options.signal ⟨attempt, .answered⟩ = false →
    collectFieldErrors b.numberText error ≠ none ∧
      (aborted options.signal ⟨attempt, .reading⟩ = true → getErrorCode error = none)

end Browser

/-- The status, the code and the flag of the `ApiError` with which a call has failed. -/
def failedWith {α : Type} : Except Failure α → Option (ℕ × Option Text × Bool)
  | .error (.api error) => some (error.status, error.code, error.cancelled)
  | _ => none

/-! ### Moments -/

theorem Moment.le_trans {a b c : Moment} (hab : a.le b = true) (hbc : b.le c = true) : a.le c = true := by
  simp only [Moment.le, Bool.or_eq_true, Bool.and_eq_true, decide_eq_true_eq] at hab hbc ⊢
  omega

theorem aborted_iff {signal : Option AbortSignal} {moment : Moment} : aborted signal moment = true ↔
    ∃ parent, signal = some parent ∧ ∃ at', parent.abortedAt = some at' ∧ at'.le moment = true := by
  simp only [aborted, AbortSignal.aborted, Option.any_eq_true]

/-- A signal stays aborted. -/
theorem aborted_mono {signal : Option AbortSignal} {a b : Moment} (hab : a.le b = true)
    (h : aborted signal a = true) : aborted signal b = true := by
  obtain ⟨parent, hparent, at', hat, hle⟩ := aborted_iff.1 h
  exact aborted_iff.2 ⟨parent, hparent, at', hat, Moment.le_trans hle hab⟩

/-- The signal of a request is aborted with the one of the caller, if that is before the answer. -/
theorem aborted_requestSignal_iff {signal : Option AbortSignal} {attempt : ℕ} {moment : Moment} :
    aborted (some (createRequestSignal signal attempt)) moment = true ↔
      ∃ parent, signal = some parent ∧ ∃ at', parent.abortedAt = some at' ∧
        at'.le ⟨attempt, .answered⟩ = true ∧ at'.le moment = true := by
  rw [aborted_iff]
  constructor
  · rintro ⟨own, hown, at', hat, hle⟩
    obtain rfl := Option.some.inj hown
    obtain ⟨parent, hparent, hfilter⟩ := Option.bind_eq_some_iff.1 hat
    obtain ⟨hat, hbefore⟩ := Option.filter_eq_some_iff.1 hfilter
    exact ⟨parent, hparent, at', hat, hbefore, hle⟩
  · rintro ⟨parent, hparent, at', hat, hbefore, hle⟩
    exact ⟨_, rfl, at', Option.bind_eq_some_iff.2 ⟨parent, hparent,
      Option.filter_eq_some_iff.2 ⟨hat, hbefore⟩⟩, hle⟩

/-- It follows the one of the caller until the answer is there, -/
theorem aborted_requestSignal {signal : Option AbortSignal} {attempt : ℕ} {moment : Moment}
    (h : moment.le ⟨attempt, .answered⟩ = true) :
    aborted (some (createRequestSignal signal attempt)) moment = aborted signal moment := by
  rw [Bool.eq_iff_iff, aborted_requestSignal_iff, aborted_iff]
  constructor
  · rintro ⟨parent, hparent, at', hat, -, hle⟩
    exact ⟨parent, hparent, at', hat, hle⟩
  · rintro ⟨parent, hparent, at', hat, hle⟩
    exact ⟨parent, hparent, at', hat, Moment.le_trans hle h, hle⟩

/-- and no longer. -/
theorem aborted_requestSignal_reading {signal : Option AbortSignal} {attempt : ℕ} :
    aborted (some (createRequestSignal signal attempt)) ⟨attempt, .reading⟩ =
      aborted signal ⟨attempt, .answered⟩ := by
  have hle : (⟨attempt, .answered⟩ : Moment).le ⟨attempt, .reading⟩ = true := by
    simp [Moment.le, FetchStage.rank]
  rw [Bool.eq_iff_iff, aborted_requestSignal_iff, aborted_iff]
  constructor
  · rintro ⟨parent, hparent, at', hat, hbefore, -⟩
    exact ⟨parent, hparent, at', hat, hbefore⟩
  · rintro ⟨parent, hparent, at', hat, hbefore⟩
    exact ⟨parent, hparent, at', hat, hbefore, Moment.le_trans hbefore hle⟩

namespace Browser

variable {b : Browser} {options : RequestInit} {attempt : ℕ} {path : String}

/-! ### The requests -/

theorem starting_le_fetching : (⟨attempt, .starting⟩ : Moment).le ⟨attempt, .fetching⟩ = true := by
  simp [Moment.le, FetchStage.rank]

theorem delivered_of_aborted (h : aborted options.signal ⟨attempt, .fetching⟩ = true) :
    b.delivered options attempt = none :=
  if_pos (by rw [h, Bool.or_true])

/-- What a request is answered does not depend on its headers. -/
theorem fetch_snd (headers : Headers) :
    (b.fetch attempt path options headers options.signal).2 = b.delivered options attempt := by
  rw [fetch, delivered]
  split
  · next h =>
    rcases Bool.or_eq_true_iff.1 h with hrefused | habort
    · rw [if_pos (by rw [hrefused, Bool.true_or])]
    · rw [if_pos (by rw [aborted_mono starting_le_fetching habort, Bool.or_true])]
  · next h =>
    rw [Bool.or_eq_true, not_or, Bool.not_eq_true] at h
    rw [h.1, Bool.false_or]

/-- The signal of the request is as good as the one of the caller. -/
theorem fetch_requestSignal (headers : Headers) :
    b.fetch attempt path options headers (some (createRequestSignal options.signal attempt)) =
      b.fetch attempt path options headers options.signal := by
  have hstart : (⟨attempt, .starting⟩ : Moment).le ⟨attempt, .answered⟩ = true := by
    simp [Moment.le, FetchStage.rank]
  have hfetch : (⟨attempt, .fetching⟩ : Moment).le ⟨attempt, .answered⟩ = true := by
    simp [Moment.le, FetchStage.rank]
  rw [fetch, fetch, aborted_requestSignal hstart, aborted_requestSignal hfetch]

/-- **The headers are the same** for a body whose type is known. -/
theorem jsonHeaders_eq
    (h : (∀ text, options.body ≠ some (.string text)) ∧ options.body ≠ some .null ∨
      (Headers.ofInit options.headers).has "Content-Type" = true) :
    b.jsonHeaders attempt options = b.streamHeaders attempt options := by
  rw [jsonHeaders, streamHeaders]
  congr 1
  refine if_neg fun hset ↦ ?_
  simp only [Bool.and_eq_true, Bool.not_eq_true', decide_eq_true_eq] at hset
  obtain ⟨⟨hform, hbody⟩, htype⟩ := hset
  rcases h with ⟨hstring, hnull⟩ | hhas
  · match hcase : options.body with
    | none => exact hbody hcase
    | some .null => exact hnull hcase
    | some (.string text) => exact hstring text hcase
    | some (.formData _) => rw [hcase] at hform; exact nomatch hform
  · exact nomatch htype.symm.trans hhas

/-- A cookie does not name a type. -/
theorem get_withCsrf (headers : Headers) :
    (b.withCsrf attempt headers).get "Content-Type" = headers.get "Content-Type" := by
  rw [withCsrf]
  split
  · rfl
  · split
    · exact Headers.get_set_of_ne (by decide +kernel)
    · rfl

/-- The type with which an untyped body goes out of the streaming client. -/
theorem get_streamHeaders (h : (Headers.ofInit options.headers).has "Content-Type" = false)
    (hbody : options.body = some .null ∨ ∃ text, options.body = some (.string text)) :
    (b.withBodyType attempt options.body (b.streamHeaders attempt options)).get "Content-Type" ≠
      some "application/json" := by
  have hnone : (b.streamHeaders attempt options).get "Content-Type" = none := by
    rw [streamHeaders, get_withCsrf]
    exact Option.isSome_eq_false_iff.1 h |> Option.isNone_iff_eq_none.1
  have hhas : (b.streamHeaders attempt options).has "Content-Type" = false := by
    rw [Headers.has, hnone]
    rfl
  unfold withBodyType
  rw [hhas, if_neg Bool.false_ne_true]
  rcases hbody with hnull | ⟨text, hstring⟩
  · rw [hnull, hnone]
    exact (Option.some_ne_none _).symm
  · simp only [hstring, Headers.append, hnone, Headers.get_set_self]
    decide +kernel

/-- And out of the other one. -/
theorem get_jsonHeaders (h : (Headers.ofInit options.headers).has "Content-Type" = false)
    (hbody : options.body = some .null ∨ ∃ text, options.body = some (.string text)) :
    (b.withBodyType attempt options.body (b.jsonHeaders attempt options)).get "Content-Type" =
      some "application/json" := by
  have hsome : (b.jsonHeaders attempt options).get "Content-Type" = some "application/json" := by
    rw [jsonHeaders, get_withCsrf]
    rcases hbody with hnull | ⟨text, hstring⟩
    · simp only [hnull, h]
      exact Headers.get_set_self
    · simp only [hstring, h]
      exact Headers.get_set_self
  have hhas : (b.jsonHeaders attempt options).has "Content-Type" = true := by
    rw [Headers.has, hsome]
    rfl
  unfold withBodyType
  rw [if_pos hhas, hsome]

/-- What an attempt sends, and the answer it gets. -/
theorem fetch_eq (headers : Headers) :
    b.fetch attempt path options headers options.signal =
      ((b.fetch attempt path options headers options.signal).1, b.delivered options attempt) :=
  Prod.ext rfl (fetch_snd headers)

/-- Nothing is sent. -/
theorem fetch_fst_of_idle (headers : Headers)
    (h : refused options.method options.body = true ∨
      aborted options.signal ⟨attempt, .starting⟩ = true) :
    (b.fetch attempt path options headers options.signal).1 = [] := by
  rw [fetch, if_pos (Bool.or_eq_true_iff.2 h)]

theorem fetch_fst_prefix_stream (retry : Option (Exchange ServerResponse)) :
    (b.fetch attempt path options (b.streamHeaders attempt options) options.signal).1 <+:
      (b.streamAttempt attempt path options retry).1 := by
  unfold streamAttempt
  rw [fetch_eq]
  match b.delivered options attempt, retry with
  | none, _ => exact List.prefix_refl _
  | some _, none => exact List.prefix_refl _
  | some response, some again =>
    dsimp only
    split
    · split
      · exact List.prefix_refl _
      · exact List.prefix_refl _
      · exact List.prefix_append _ _
    · exact List.prefix_refl _

theorem fetch_fst_prefix_json (retry : Option (Exchange (Option Json))) :
    (b.fetch attempt path options (b.jsonHeaders attempt options) options.signal).1 <+:
      (b.jsonAttempt attempt path options retry).1 := by
  unfold jsonAttempt
  dsimp only
  rw [fetch_requestSignal, fetch_eq]
  match b.delivered options attempt, retry with
  | none, _ => exact List.prefix_refl _
  | some _, none => exact List.prefix_refl _
  | some response, some again =>
    dsimp only
    split
    · split
      · exact List.prefix_refl _
      · exact List.prefix_refl _
      · split
        · exact List.prefix_refl _
        · exact List.prefix_append _ _
    · exact List.prefix_refl _

/-! ### The end of a call -/

theorem answered_le_reading : (⟨attempt, .answered⟩ : Moment).le ⟨attempt, .reading⟩ = true := by
  simp [Moment.le, FetchStage.rank]

/-- **The answer is read alike.** -/
theorem finish_agree_iff {response : ServerResponse} :
    failedWith (b.finishJson attempt options response) =
      failedWith (finishStream attempt options response) ↔ b.ReadAlike options attempt response := by
  unfold finishJson finishStream ReadAlike
  dsimp only
  rcases hok : response.ok with - | -
  · simp only [readJson, aborted_requestSignal_reading, Bool.not_false, if_true]
    rcases hanswered : aborted options.signal ⟨attempt, .answered⟩ with - | -
    · simp only [Bool.false_eq_true, if_false, forall_const]
      rcases hfields : collectFieldErrors b.numberText (response.json.getD (.object [])) with - | fields
      · simp [failedWith]
      · rcases hreading : aborted options.signal ⟨attempt, .reading⟩ with - | -
        · simp [failedWith]
        · -- The streaming client has no body any more.
          have hempty : getErrorCode (.object []) = none := rfl
          simp [failedWith, hempty]
    · have hreading : aborted options.signal ⟨attempt, .reading⟩ = true :=
        aborted_mono answered_le_reading hanswered
      have hempty : collectFieldErrors b.numberText (.object []) = some [] := rfl
      simp [hreading, hempty, failedWith]
  · refine iff_of_true ?_ fun h ↦ nomatch h
    rw [Bool.not_true, if_neg Bool.false_ne_true, if_neg Bool.false_ne_true]
    split
    · rfl
    · split <;> rfl

/-- An attempt that gets no answer fails alike. -/
theorem failedWith_stream_of_none (retry : Option (Exchange ServerResponse))
    (h : b.delivered options attempt = none) :
    failedWith (b.streamAttempt attempt path options retry).2 =
      some (0, none, aborted options.signal ⟨attempt, .answered⟩) := by
  unfold streamAttempt
  rw [fetch_eq, h]
  rfl

theorem failedWith_json_of_none (retry : Option (Exchange (Option Json)))
    (h : b.delivered options attempt = none) :
    failedWith (b.jsonAttempt attempt path options retry).2 =
      some (0, none, aborted options.signal ⟨attempt, .answered⟩) := by
  unfold jsonAttempt
  dsimp only
  rw [fetch_requestSignal, fetch_eq, h]
  rfl

/-- The second attempt is the last one. -/
theorem streamAttempt_last {response : ServerResponse} (h : b.delivered options attempt = some response) :
    (b.streamAttempt attempt path options none).2 = finishStream attempt options response := by
  unfold streamAttempt
  rw [fetch_eq, h]

theorem jsonAttempt_last {response : ServerResponse} (h : b.delivered options attempt = some response) :
    (b.jsonAttempt attempt path options none).2 = b.finishJson attempt options response := by
  unfold jsonAttempt
  dsimp only
  rw [fetch_requestSignal, fetch_eq, h]

/-! ### The first attempt -/

section First

variable {first : ServerResponse}

/-- How the refresh ends. -/
theorem refresh_cases (h : aborted options.signal ⟨0, .answered⟩ = false) :
    (b.Refreshes options ∧ b.refreshForRetry 0 options.signal = .ok true) ∨
      (¬ b.Refreshes options ∧ (b.refreshForRetry 0 options.signal = .ok false ∨
        b.refreshForRetry 0 options.signal = .error (.api cancelledRequestError))) := by
  rw [refreshForRetry, h, if_neg Bool.false_ne_true, Refreshes]
  rcases b.authSessionActive with - | -
  · exact .inr ⟨fun h ↦ (nomatch h.1), .inl rfl⟩
  rcases aborted options.signal ⟨0, .refreshing⟩ with - | -
  · rcases b.refreshed with - | -
    · exact .inr ⟨fun h ↦ (nomatch h.2.2), .inl rfl⟩
    · exact .inl ⟨⟨rfl, rfl, rfl⟩, rfl⟩
  · exact .inr ⟨fun h ↦ (nomatch h.2.1), .inr rfl⟩

theorem expired_iff : (first.status = 401 && !aborted options.signal ⟨0, .answered⟩) = true ↔
    Expired options first := by
  rw [Expired, Bool.and_eq_true, decide_eq_true_iff, Bool.not_eq_true']

theorem streamAttempt_settled (again : Exchange ServerResponse)
    (hfirst : b.delivered options 0 = some first) (h : ¬ Expired options first) :
    b.streamAttempt 0 path options (some again) =
      ((b.fetch 0 path options (b.streamHeaders 0 options) options.signal).1,
        finishStream 0 options first) := by
  unfold streamAttempt
  rw [fetch_eq, hfirst]
  exact if_neg (mt expired_iff.1 h)

theorem jsonAttempt_settled (again : Exchange (Option Json))
    (hfirst : b.delivered options 0 = some first) (h : ¬ Expired options first) :
    b.jsonAttempt 0 path options (some again) =
      ((b.fetch 0 path options (b.jsonHeaders 0 options) options.signal).1,
        b.finishJson 0 options first) := by
  unfold jsonAttempt
  dsimp only
  rw [fetch_requestSignal, fetch_eq, hfirst]
  exact if_neg (mt expired_iff.1 h)

theorem streamAttempt_expired (again : Exchange ServerResponse)
    (hfirst : b.delivered options 0 = some first) (h : Expired options first) :
    b.streamAttempt 0 path options (some again) =
      let sent := (b.fetch 0 path options (b.streamHeaders 0 options) options.signal).1
      match b.refreshForRetry 0 options.signal with
      | .error failure => (sent, .error failure)
      | .ok false => (sent, .error (.api sessionExpiredError))
      | .ok true => (sent ++ again.1, again.2) := by
  unfold streamAttempt
  rw [fetch_eq, hfirst]
  exact if_pos (expired_iff.2 h)

theorem jsonAttempt_expired (again : Exchange (Option Json))
    (hfirst : b.delivered options 0 = some first) (h : Expired options first) :
    b.jsonAttempt 0 path options (some again) =
      let sent := (b.fetch 0 path options (b.jsonHeaders 0 options) options.signal).1
      match b.refreshForRetry 0 options.signal with
      | .error failure => (sent, .error failure)
      | .ok false => (sent, .error (.api sessionExpiredError))
      | .ok true =>
        if aborted options.signal ⟨0, .refreshed⟩ then (sent, .error (.api cancelledRequestError))
        else (sent ++ again.1, again.2) := by
  unfold jsonAttempt
  dsimp only
  rw [fetch_requestSignal, fetch_eq, hfirst]
  exact if_pos (expired_iff.2 h)

theorem last_zero_iff {response : ServerResponse} : b.Last options 0 response ↔
    b.delivered options 0 = some response ∧ ¬ Expired options response := by
  simp [Last]

theorem last_one_iff {response : ServerResponse} : b.Last options 1 response ↔
    b.delivered options 1 = some response ∧
      ∃ first, b.delivered options 0 = some first ∧ Expired options first ∧ b.Refreshes options := by
  simp [Last]

/-- Whether all last answers are read alike, when the first answer is the last one. -/
theorem forall_last_settled {P : ℕ → ServerResponse → Prop}
    (hfirst : b.delivered options 0 = some first) (h : ¬ Expired options first) :
    (∀ n response, b.Last options n response → P n response) ↔ P 0 first := by
  constructor
  · intro hall
    exact hall 0 first (last_zero_iff.2 ⟨hfirst, h⟩)
  · rintro hP n response (⟨rfl, hresponse, -⟩ | ⟨rfl, -, other, hother, hexpired, -⟩)
    · rw [hfirst] at hresponse
      exact Option.some.inj hresponse ▸ hP
    · rw [hfirst] at hother
      exact absurd (Option.some.inj hother ▸ hexpired) h

/-- And when it is followed by a retry. -/
theorem forall_last_expired {P : ℕ → ServerResponse → Prop}
    (hfirst : b.delivered options 0 = some first) (h : Expired options first) :
    (∀ n response, b.Last options n response → P n response) ↔
      (b.Refreshes options → ∀ response, b.delivered options 1 = some response → P 1 response) := by
  constructor
  · intro hall hrefreshes response hresponse
    exact hall 1 response (last_one_iff.2 ⟨hresponse, first, hfirst, h, hrefreshes⟩)
  · rintro hP n response (⟨rfl, hresponse, hnot⟩ | ⟨rfl, hresponse, other, -, -, hrefreshes⟩)
    · rw [hfirst] at hresponse
      exact absurd (Option.some.inj hresponse ▸ h) hnot
    · exact hP hrefreshes response hresponse

/-- A call that is aborted before the retry gets no second answer. -/
theorem delivered_of_refreshed (h : aborted options.signal ⟨0, .refreshed⟩ = true) :
    b.delivered options 1 = none ∧ aborted options.signal ⟨1, .starting⟩ = true ∧
      aborted options.signal ⟨1, .answered⟩ = true := by
  have hlater : ∀ stage, aborted options.signal ⟨1, stage⟩ = true := fun stage ↦
    aborted_mono (by simp [Moment.le]) h
  exact ⟨delivered_of_aborted (hlater _), hlater _, hlater _⟩

end First

/-! ### Failures -/

/-- **The second attempts end alike.** -/
theorem second_agree_iff :
    failedWith (b.jsonAttempt 1 path options none).2 = failedWith (b.streamAttempt 1 path options none).2 ↔
      ∀ response, b.delivered options 1 = some response → b.ReadAlike options 1 response := by
  rcases hsecond : b.delivered options 1 with - | response
  · rw [failedWith_json_of_none none hsecond, failedWith_stream_of_none none hsecond]
    exact iff_of_true rfl fun _ h ↦ nomatch h
  · rw [jsonAttempt_last hsecond, streamAttempt_last hsecond, finish_agree_iff]
    exact ⟨fun h _ heq ↦ Option.some.inj heq ▸ h, fun h ↦ h response rfl⟩

/-- **The calls fail alike.** -/
theorem failures_agree_iff :
    failedWith (b.apiFetch path options).2 = failedWith (b.apiFetchStream path options).2 ↔
      ∀ n response, b.Last options n response → b.ReadAlike options n response := by
  unfold apiFetch apiFetchStream
  rcases hfirst : b.delivered options 0 with - | first
  · rw [failedWith_json_of_none _ hfirst, failedWith_stream_of_none _ hfirst]
    refine iff_of_true rfl ?_
    rintro n response (⟨-, hresponse, -⟩ | ⟨-, -, other, hother, -⟩)
    · exact nomatch hfirst.symm.trans hresponse
    · exact nomatch hfirst.symm.trans hother
  by_cases hexpired : Expired options first
  · rw [forall_last_expired hfirst hexpired, jsonAttempt_expired _ hfirst hexpired,
      streamAttempt_expired _ hfirst hexpired]
    rcases refresh_cases hexpired.2 with ⟨hrefreshes, hrefresh⟩ | ⟨hnot, hrefresh | hrefresh⟩
    · rw [hrefresh]
      dsimp only
      split
      · next habort =>
        obtain ⟨hsecond, -, hanswered⟩ := delivered_of_refreshed (b := b) habort
        rw [failedWith_stream_of_none none hsecond, hanswered]
        exact iff_of_true rfl fun _ response h ↦ nomatch hsecond.symm.trans h
      · rw [second_agree_iff]
        exact ⟨fun h _ ↦ h, fun h ↦ h hrefreshes⟩
    · rw [hrefresh]
      exact iff_of_true rfl fun h ↦ absurd h hnot
    · rw [hrefresh]
      exact iff_of_true rfl fun h ↦ absurd h hnot
  · rw [forall_last_settled hfirst hexpired, jsonAttempt_settled _ hfirst hexpired,
      streamAttempt_settled _ hfirst hexpired, finish_agree_iff]

/-- A call that does not fail ends with an answer that is no error. -/
theorem last_of_not_failed (h : failedWith (b.apiFetchStream path options).2 = none) :
    ∃ n response, b.Last options n response ∧ response.ok = true := by
  have hfinish : ∀ {n response}, failedWith (finishStream n options response) = none →
      response.ok = true := by
    intro n response hnone
    unfold finishStream at hnone
    split at hnone
    · exact nomatch hnone
    · next hok => simpa using hok
  unfold apiFetchStream at h
  rcases hfirst : b.delivered options 0 with - | first
  · rw [failedWith_stream_of_none _ hfirst] at h
    exact nomatch h
  by_cases hexpired : Expired options first
  · rw [streamAttempt_expired _ hfirst hexpired] at h
    rcases refresh_cases hexpired.2 with ⟨hrefreshes, hrefresh⟩ | ⟨-, hrefresh | hrefresh⟩
    · rw [hrefresh] at h
      rcases hsecond : b.delivered options 1 with - | response
      · exact nomatch (failedWith_stream_of_none none hsecond).symm.trans h
      · refine ⟨1, response, last_one_iff.2 ⟨hsecond, first, hfirst, hexpired, hrefreshes⟩, ?_⟩
        exact hfinish ((congrArg failedWith (streamAttempt_last hsecond)).symm.trans h)
    · rw [hrefresh] at h
      exact nomatch h
    · rw [hrefresh] at h
      exact nomatch h
  · rw [streamAttempt_settled _ hfirst hexpired] at h
    exact ⟨0, first, last_zero_iff.2 ⟨hfirst, hexpired⟩, hfinish h⟩

/-! ### The same requests -/

theorem fst_stream_of_none (retry : Option (Exchange ServerResponse))
    (h : b.delivered options attempt = none) :
    (b.streamAttempt attempt path options retry).1 =
      (b.fetch attempt path options (b.streamHeaders attempt options) options.signal).1 := by
  unfold streamAttempt
  rw [fetch_eq, h]

theorem fst_json_of_none (retry : Option (Exchange (Option Json)))
    (h : b.delivered options attempt = none) :
    (b.jsonAttempt attempt path options retry).1 =
      (b.fetch attempt path options (b.jsonHeaders attempt options) options.signal).1 := by
  unfold jsonAttempt
  dsimp only
  rw [fetch_requestSignal, fetch_eq, h]

/-- A second attempt sends what it fetches. -/
theorem fst_stream_second :
    (b.streamAttempt 1 path options none).1 =
      (b.fetch 1 path options (b.streamHeaders 1 options) options.signal).1 := by
  unfold streamAttempt
  rw [fetch_eq]
  rcases b.delivered options 1 with - | response <;> rfl

theorem fst_json_second :
    (b.jsonAttempt 1 path options none).1 =
      (b.fetch 1 path options (b.jsonHeaders 1 options) options.signal).1 := by
  unfold jsonAttempt
  dsimp only
  rw [fetch_requestSignal, fetch_eq]
  rcases b.delivered options 1 with - | response <;> rfl

/-- **Clients with the same headers send the same.** -/
theorem requests_eq_of_headers
    (h : ∀ attempt, b.jsonHeaders attempt options = b.streamHeaders attempt options) :
    (b.apiFetch path options).1 = (b.apiFetchStream path options).1 := by
  unfold apiFetch apiFetchStream
  rcases hfirst : b.delivered options 0 with - | first
  · rw [fst_json_of_none _ hfirst, fst_stream_of_none _ hfirst, h]
  by_cases hexpired : Expired options first
  · rw [jsonAttempt_expired _ hfirst hexpired, streamAttempt_expired _ hfirst hexpired]
    rcases b.refreshForRetry 0 options.signal with failure | refreshed
    · exact congrArg (fun headers ↦ (b.fetch 0 path options headers options.signal).1) (h 0)
    rcases refreshed with - | -
    · exact congrArg (fun headers ↦ (b.fetch 0 path options headers options.signal).1) (h 0)
    dsimp only
    split
    · next habort =>
      -- The streaming client calls `fetch` once more, which sends nothing.
      have hidle : (b.fetch 1 path options (b.streamHeaders 1 options) options.signal).1 = [] :=
        fetch_fst_of_idle _ (.inr (delivered_of_refreshed (b := b) habort).2.1)
      rw [fst_stream_second, hidle, List.append_nil, h]
    · rw [fst_stream_second, fst_json_second, h, h]
  · rw [jsonAttempt_settled _ hfirst hexpired, streamAttempt_settled _ hfirst hexpired, h]

/-- What a client fetches first, if it fetches anything. -/
theorem fetch_fst_of_not_idle (headers : Headers) (hrefused : refused options.method options.body = false)
    (habort : aborted options.signal ⟨attempt, .starting⟩ = false) :
    (b.fetch attempt path options headers options.signal).1 =
      [{ url := b.apiBase ++ path
         method := normalizeMethod (options.method.getD "GET")
         headers := b.withBodyType attempt options.body headers
         body := options.body
         credentials := "include" }] := by
  rw [fetch, hrefused, habort, if_neg (by decide)]

/-- **The calls send the same requests.** -/
theorem requests_agree_iff :
    (b.apiFetch path options).1 = (b.apiFetchStream path options).1 ↔ Typed options := by
  constructor
  · intro h
    by_contra hnot
    simp only [Typed, not_or, not_and_or, not_forall, not_not, Bool.not_eq_true] at hnot
    obtain ⟨hbody, htype, hrefused, habort⟩ := hnot
    have hjson : (b.fetch 0 path options (b.jsonHeaders 0 options) options.signal).1 <+:
        (b.apiFetch path options).1 := fetch_fst_prefix_json _
    have hstream : (b.fetch 0 path options (b.streamHeaders 0 options) options.signal).1 <+:
        (b.apiFetchStream path options).1 := fetch_fst_prefix_stream _
    rw [fetch_fst_of_not_idle _ hrefused habort] at hjson hstream
    rw [h, List.singleton_prefix_iff_head?_eq_some] at hjson
    have hstream := List.singleton_prefix_iff_head?_eq_some.1 hstream
    have heq := congrArg SentRequest.headers (Option.some.inj (hjson.symm.trans hstream))
    have hsame := congrArg (fun headers ↦ headers.get "Content-Type") heq
    exact get_streamHeaders htype hbody.symm (hsame.symm.trans (get_jsonHeaders htype hbody.symm))
  · rintro (hbody | htype | hidle)
    · exact requests_eq_of_headers fun _ ↦ jsonHeaders_eq (.inl hbody)
    · exact requests_eq_of_headers fun _ ↦ jsonHeaders_eq (.inr htype)
    · have hnone : b.delivered options 0 = none := by
        rcases hidle with hrefused | habort
        · exact if_pos (by rw [hrefused, Bool.true_or])
        · exact delivered_of_aborted (aborted_mono starting_le_fetching habort)
      unfold apiFetch apiFetchStream
      rw [fst_json_of_none _ hnone, fst_stream_of_none _ hnone, fetch_fst_of_idle _ hidle,
        fetch_fst_of_idle _ hidle]

/-- **When the clients do the same.** They send the same requests, fail with the same status, code and
flag, and fail unless the call ends with an answer that is no error, exactly if the type of the body is
known without the client and the answer with which the call ends is read alike. -/
theorem clients_agree_iff (b : Browser) (path : String) (options : RequestInit) :
    ((b.apiFetch path options).1 = (b.apiFetchStream path options).1 ∧
      failedWith (b.apiFetch path options).2 = failedWith (b.apiFetchStream path options).2 ∧
      (failedWith (b.apiFetchStream path options).2 = none →
        ∃ n response, b.Last options n response ∧ response.ok = true)) ↔
      Typed options ∧ ∀ n response, b.Last options n response → b.ReadAlike options n response := by
  rw [requests_agree_iff, failures_agree_iff]
  exact and_congr_right fun _ ↦ and_iff_left last_of_not_failed

/-- A server that answers with these statuses, and a session that can be refreshed. -/
def answering (first second : ServerResponse) : Browser where
  apiBase := "/api/v1"
  csrfCookie _ := some "token"
  boundary _ := "part"
  answers attempt := if attempt = 0 then some first else some second
  authSessionActive := true
  refreshed := true
  numberText n := n.text

/-- The request of `streamChatMessage`. -/
def streamChatMessage (payload : String) : RequestInit where
  method := some "POST"
  body := some (.string payload)

/-- A server that has nothing to say. -/
def answeringEmpty : Browser := answering ⟨200, some (.object []), none⟩ ⟨200, some (.object []), none⟩

/-- **A streamed message goes out as plain text**, and the same message as JSON: the clients do not send
the same request. -/
theorem streamed_as_text :
    (answeringEmpty.apiFetch "/chat" (streamChatMessage "hello")).1 ≠
      (answeringEmpty.apiFetchStream "/chat" (streamChatMessage "hello")).1 ∧
    (answeringEmpty.apiFetchStream "/chat" (streamChatMessage "hello")).1.map
      (fun request ↦ request.headers.get "Content-Type") = [some "text/plain;charset=UTF-8"] ∧
    (answeringEmpty.apiFetch "/chat" (streamChatMessage "hello")).1.map
      (fun request ↦ request.headers.get "Content-Type") = [some "application/json"] := by
  decide +kernel

end Browser

end GenericApp.Frontend
