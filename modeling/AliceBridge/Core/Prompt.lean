import AliceBridge.Core.Family

/-! # The system prompt

`build_system_prompt`, and the instruction of a summarization request. -/
namespace AliceBridge.Core.Prompt
open AliceBridge.Lib.Utf8 AliceBridge.Lib.Words AliceBridge.Core.Family

structure PromptContext where
  today : NaiveDate
  profile : Profile
  roster : FamilyRoster
  mode : Option Mode
  summary : Option Text

def line (text : Text) : Text := text ++ ['\n']

def speakerLine (profile : Profile) (today : NaiveDate) : Text :=
  line <| match profile.ageOn today with
  | some age =>
    "Сейчас с тобой говорит ".toList ++ profile.name ++ " (".toList ++ decimal age ++
      " лет). ".toList ++ profile.persona
  | none =>
    "Сейчас с тобой говорит ".toList ++ profile.name ++ ". ".toList ++ profile.persona

def memberText (profile : Profile) : Text :=
  match profile.birthday with
  | some birthday =>
    profile.name ++ " (день рождения ".toList ++ birthday.display ++ ")".toList
  | none => profile.name

def buildSystemPrompt (ctx : PromptContext) : Text :=
  line ("Ты — голосовой помощник семьи, отвечаешь через умную колонку. ".toList ++
    "Отвечай кратко, одним-тремя предложениями, без списков, без markdown ".toList ++
    "и без эмодзи: текст будет озвучен вслух.".toList) ++
  line ("Сегодня ".toList ++ ctx.today.display ++ ".".toList) ++
  speakerLine ctx.profile ctx.today ++
  (if ctx.profile.role = .child then
    line ("Собеседник — ребенок: отвечай бережно, простыми словами, ".toList ++
      "без взрослых и пугающих тем.".toList)
  else []) ++
  line ("Семья: ".toList ++ ", ".toList.intercalate (ctx.roster.profiles.map memberText) ++
    ".".toList) ++
  (match ctx.mode with
  | some mode => line ("Текущий режим: ".toList ++ mode.prompt)
  | none => []) ++
  (match ctx.summary with
  | some summary => line ("Краткая память о прошлых разговорах: ".toList ++ summary)
  | none => [])

end AliceBridge.Core.Prompt
