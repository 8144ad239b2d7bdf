import VoiceAgentPlatform.Lib.Ordered
import VoiceAgentPlatform.Lib.PyVal

/-!
# The voices of the code

The three dictionaries of voices in `bot.py`, which seed the voice table and stand in for it, and the
default voices.
-/

namespace Voices

/-- An entry of `MINIMAX_VOICES`. -/
def minimaxVoice (id label gender language boost : String) : String × PyDict :=
  (id, [("label", .str label), ("gender", .str gender), ("language", .str language),
    ("boost", .str boost)])

/-- An entry of `POLLY_VOICES`. -/
def pollyVoice (id label gender language engine : String) : String × PyDict :=
  (id, [("label", .str label), ("gender", .str gender), ("language", .str language),
    ("engine", .str engine)])

/-- An entry of `NOVA_SONIC_VOICES`, of which some are polyglot. -/
def novaSonicVoice (id label gender locale langLabel : String) (polyglot : Bool) : String × PyDict :=
  (id, [("label", .str label), ("gender", .str gender), ("locale", .str locale),
    ("lang_label", .str langLabel)] ++ if polyglot then [("polyglot", .bool true)] else [])

/-- `_BOOST_YUE`. -/
def boostYue : String := "Chinese,Yue"

/-- `_BOOST_ZH`. -/
def boostZh : String := "Chinese"

/-- `_BOOST_EN`. -/
def boostEn : String := "English"

/-- `_BOOST_JA`. -/
def boostJa : String := "Japanese"

/-- `MINIMAX_VOICES`. -/
def minimaxVoices : List (String × PyDict) :=
  [ minimaxVoice "Cantonese_GentleLady" "Gentle Lady" "F" "zh-HK" boostYue,
    minimaxVoice "Cantonese_KindWoman" "Kind Woman" "F" "zh-HK" boostYue,
    minimaxVoice "Cantonese_CuteGirl" "Cute Girl" "F" "zh-HK" boostYue,
    minimaxVoice "Cantonese_PlayfulMan" "Playful Man" "M" "zh-HK" boostYue,
    minimaxVoice "Cantonese_ProfessionalHost（F)" "Professional Host" "F" "zh-HK" boostYue,
    minimaxVoice "Cantonese_ProfessionalHost（M)" "Professional Host" "M" "zh-HK" boostYue,
    minimaxVoice "Chinese (Mandarin)_Gentleman" "Gentleman" "M" "zh-CN" boostZh,
    minimaxVoice "Chinese (Mandarin)_News_Anchor" "News Anchor" "F" "zh-CN" boostZh,
    minimaxVoice "Chinese (Mandarin)_Reliable_Executive" "Reliable Executive" "M" "zh-CN" boostZh,
    minimaxVoice "Chinese (Mandarin)_Male_Announcer" "Male Announcer" "M" "zh-CN" boostZh,
    minimaxVoice "Chinese (Mandarin)_Radio_Host" "Radio Host (M)" "M" "zh-CN" boostZh,
    minimaxVoice "Chinese (Mandarin)_Lyrical_Voice" "Lyrical Voice (M)" "M" "zh-CN" boostZh,
    minimaxVoice "Chinese (Mandarin)_Humorous_Elder" "Humorous Elder" "M" "zh-CN" boostZh,
    minimaxVoice "Chinese (Mandarin)_Kind-hearted_Elder" "Kind-hearted Elder" "F" "zh-CN" boostZh,
    minimaxVoice "Chinese (Mandarin)_Gentle_Senior" "Gentle Senior" "F" "zh-CN" boostZh,
    minimaxVoice "Chinese (Mandarin)_Sincere_Adult" "Sincere Adult" "M" "zh-CN" boostZh,
    minimaxVoice "Chinese (Mandarin)_Mature_Woman" "Mature Woman" "F" "zh-CN" boostZh,
    minimaxVoice "Chinese (Mandarin)_Wise_Women" "Wise Woman" "F" "zh-CN" boostZh,
    minimaxVoice "Chinese (Mandarin)_Warm_Bestie" "Warm Bestie" "F" "zh-CN" boostZh,
    minimaxVoice "Chinese (Mandarin)_Sweet_Lady" "Sweet Lady" "F" "zh-CN" boostZh,
    minimaxVoice "Chinese (Mandarin)_Warm_Girl" "Warm Girl" "F" "zh-CN" boostZh,
    minimaxVoice "Chinese (Mandarin)_Crisp_Girl" "Crisp Girl" "F" "zh-CN" boostZh,
    minimaxVoice "Chinese (Mandarin)_Soft_Girl" "Soft Girl" "F" "zh-CN" boostZh,
    minimaxVoice "Chinese (Mandarin)_Cute_Spirit" "Cute Spirit" "F" "zh-CN" boostZh,
    minimaxVoice "Chinese (Mandarin)_Kind-hearted_Antie" "Kind-hearted Auntie" "F" "zh-CN" boostZh,
    minimaxVoice "Chinese (Mandarin)_HK_Flight_Attendant" "HK Flight Attendant" "F" "zh-CN" boostZh,
    minimaxVoice "Chinese (Mandarin)_Stubborn_Friend" "Stubborn Friend" "M" "zh-CN" boostZh,
    minimaxVoice "Chinese (Mandarin)_Gentle_Youth" "Gentle Youth" "M" "zh-CN" boostZh,
    minimaxVoice "Chinese (Mandarin)_Southern_Young_Man" "Southern Young Man" "M" "zh-CN" boostZh,
    minimaxVoice "Chinese (Mandarin)_Unrestrained_Young_Man" "Unrestrained Young Man" "M" "zh-CN" boostZh,
    minimaxVoice "Chinese (Mandarin)_Straightforward_Boy" "Straightforward Boy" "M" "zh-CN" boostZh,
    minimaxVoice "Chinese (Mandarin)_Pure-hearted_Boy" "Pure-hearted Boy" "M" "zh-CN" boostZh,
    minimaxVoice "English_Trustworthy_Man" "Trustworthy Man" "M" "en-US" boostEn,
    minimaxVoice "English_Graceful_Lady" "Graceful Lady" "F" "en-US" boostEn,
    minimaxVoice "English_Aussie_Bloke" "Aussie Bloke" "M" "en-US" boostEn,
    minimaxVoice "English_Whispering_girl" "Whispering Girl" "F" "en-US" boostEn,
    minimaxVoice "English_Diligent_Man" "Diligent Man" "M" "en-US" boostEn,
    minimaxVoice "English_Gentle-voiced_man" "Gentle-voiced Man" "M" "en-US" boostEn,
    minimaxVoice "Japanese_IntellectualSenior" "Intellectual Senior" "M" "ja-JP" boostJa,
    minimaxVoice "Japanese_GentleButler" "Gentle Butler" "M" "ja-JP" boostJa,
    minimaxVoice "Japanese_LoyalKnight" "Loyal Knight" "M" "ja-JP" boostJa,
    minimaxVoice "Japanese_DominantMan" "Dominant Man" "M" "ja-JP" boostJa,
    minimaxVoice "Japanese_SeriousCommander" "Serious Commander" "M" "ja-JP" boostJa,
    minimaxVoice "Japanese_GenerousIzakayaOwner" "Izakaya Owner" "M" "ja-JP" boostJa,
    minimaxVoice "Japanese_InnocentBoy" "Innocent Boy" "M" "ja-JP" boostJa,
    minimaxVoice "Japanese_KindLady" "Kind Lady" "F" "ja-JP" boostJa,
    minimaxVoice "Japanese_CalmLady" "Calm Lady" "F" "ja-JP" boostJa,
    minimaxVoice "Japanese_DependableWoman" "Dependable Woman" "F" "ja-JP" boostJa,
    minimaxVoice "Japanese_DecisivePrincess" "Decisive Princess" "F" "ja-JP" boostJa,
    minimaxVoice "Japanese_ColdQueen" "Cold Queen" "F" "ja-JP" boostJa,
    minimaxVoice "Japanese_GracefulMaiden" "Graceful Maiden" "F" "ja-JP" boostJa,
    minimaxVoice "Japanese_OptimisticYouth" "Optimistic Youth" "M/F" "ja-JP" boostJa,
    minimaxVoice "Japanese_SportyStudent" "Sporty Student" "M/F" "ja-JP" boostJa,
    minimaxVoice "jap_female_1222_1" "JP Female 1222-1" "F" "ja-JP" boostJa,
    minimaxVoice "jap_female_1222_3" "JP Female 1222-3" "F" "ja-JP" boostJa,
    minimaxVoice "jap_female_1222_4" "JP Female 1222-4" "F" "ja-JP" boostJa,
    minimaxVoice "jap_female_1222_6" "JP Female 1222-6" "F" "ja-JP" boostJa,
    minimaxVoice "jap_male_1222_1" "JP Male 1222-1" "M" "ja-JP" boostJa,
    minimaxVoice "jap_male_1222_2" "JP Male 1222-2" "M" "ja-JP" boostJa,
    minimaxVoice "jap_female_voice_agent_001" "JP Female Agent 001" "F" "ja-JP" boostJa,
    minimaxVoice "jap_female_voice_agent_002" "JP Female Agent 002" "F" "ja-JP" boostJa,
    minimaxVoice "jap_female_voice_agent_003" "JP Female Agent 003" "F" "ja-JP" boostJa,
    minimaxVoice "jap_female_voice_agent_004" "JP Female Agent 004" "F" "ja-JP" boostJa,
    minimaxVoice "jap_female_voice_agent_005" "JP Female Agent 005" "F" "ja-JP" boostJa,
    minimaxVoice "jap_female_voice_agent_006" "JP Female Agent 006" "F" "ja-JP" boostJa,
    minimaxVoice "jap_female_voice_agent_007" "JP Female Agent 007" "F" "ja-JP" boostJa,
    minimaxVoice "jap_female_voice_agent_008" "JP Female Agent 008" "F" "ja-JP" boostJa,
    minimaxVoice "jap_male_voice_agent_001" "JP Male Agent 001" "M" "ja-JP" boostJa,
    minimaxVoice "jap_male_voice_agent_002" "JP Male Agent 002" "M" "ja-JP" boostJa,
    minimaxVoice "jap_male_voice_agent_004" "JP Male Agent 004" "M" "ja-JP" boostJa,
    minimaxVoice "jap_male_voice_agent_005" "JP Male Agent 005" "M" "ja-JP" boostJa,
    minimaxVoice "jap_male_voice_agent_006" "JP Male Agent 006" "M" "ja-JP" boostJa,
    minimaxVoice "jap_male_voice_agent_007" "JP Male Agent 007" "M" "ja-JP" boostJa,
    minimaxVoice "jap_male_voice_agent_008" "JP Male Agent 008" "M" "ja-JP" boostJa,
    minimaxVoice "jap_male_voice_agent_009" "JP Male Agent 009" "M" "ja-JP" boostJa,
    minimaxVoice "jap_male_voice_agent_010" "JP Male Agent 010" "M" "ja-JP" boostJa,
    minimaxVoice "mm_singlish_female_5_ivc_v3" "Singlish Female 5" "F" "en-SG" boostEn,
    minimaxVoice "mm_singlish_male_2_ivc" "Singlish Male 2" "M" "en-SG" boostEn,
    minimaxVoice "mm_singlish_male_1_ivc" "Singlish Male 1" "M" "en-SG" boostEn ]

/-- `DEFAULT_MINIMAX_VOICE`. -/
def defaultMinimaxVoice : String := "Cantonese_GentleLady"

/-- `DEFAULT_MINIMAX_VOICE_BY_LANG`. -/
def defaultMinimaxVoiceByLang : List (String × String) := [("en-SG", "mm_singlish_female_5_ivc_v3")]

/-- `POLLY_VOICES`. -/
def pollyVoices : List (String × PyDict) :=
  [ pollyVoice "Hiujin" "Hiujin" "F" "zh-HK" "neural",
    pollyVoice "Zhiyu" "Zhiyu" "F" "zh-CN" "neural",
    pollyVoice "Joanna" "Joanna" "F" "en-US" "generative",
    pollyVoice "Matthew" "Matthew" "M" "en-US" "generative",
    pollyVoice "Ruth" "Ruth" "F" "en-US" "generative",
    pollyVoice "Stephen" "Stephen" "M" "en-US" "generative",
    pollyVoice "Danielle" "Danielle" "F" "en-US" "generative",
    pollyVoice "Gregory" "Gregory" "M" "en-US" "long-form",
    pollyVoice "Patrick" "Patrick" "M" "en-US" "long-form",
    pollyVoice "Kendra" "Kendra" "F" "en-US" "neural",
    pollyVoice "Kimberly" "Kimberly" "F" "en-US" "neural",
    pollyVoice "Salli" "Salli" "F" "en-US" "neural",
    pollyVoice "Joey" "Joey" "M" "en-US" "neural",
    pollyVoice "Justin" "Justin" "M (child)" "en-US" "neural",
    pollyVoice "Kevin" "Kevin" "M (child)" "en-US" "neural",
    pollyVoice "Ivy" "Ivy" "F (child)" "en-US" "neural",
    pollyVoice "Takumi" "Takumi" "M" "ja-JP" "neural",
    pollyVoice "Kazuha" "Kazuha" "F" "ja-JP" "neural",
    pollyVoice "Tomoko" "Tomoko" "F" "ja-JP" "neural",
    pollyVoice "Mizuki" "Mizuki" "F" "ja-JP" "standard" ]

/-- `DEFAULT_POLLY_VOICE`. -/
def defaultPollyVoice : String := "Zhiyu"

/-- `NOVA_SONIC_VOICES`. -/
def novaSonicVoices : List (String × PyDict) :=
  [ novaSonicVoice "tiffany" "Tiffany" "F" "en-US" "English (US)" true,
    novaSonicVoice "matthew" "Matthew" "M" "en-US" "English (US)" true,
    novaSonicVoice "amy" "Amy" "F" "en-GB" "English (UK)" false,
    novaSonicVoice "olivia" "Olivia" "F" "en-AU" "English (AU)" false,
    novaSonicVoice "kiara" "Kiara" "F" "en-IN" "English (IN) / Hindi" false,
    novaSonicVoice "arjun" "Arjun" "M" "en-IN" "English (IN) / Hindi" false,
    novaSonicVoice "ambre" "Ambre" "F" "fr-FR" "Français" false,
    novaSonicVoice "florian" "Florian" "M" "fr-FR" "Français" false,
    novaSonicVoice "beatrice" "Beatrice" "F" "it-IT" "Italiano" false,
    novaSonicVoice "lorenzo" "Lorenzo" "M" "it-IT" "Italiano" false,
    novaSonicVoice "tina" "Tina" "F" "de-DE" "Deutsch" false,
    novaSonicVoice "lennart" "Lennart" "M" "de-DE" "Deutsch" false,
    novaSonicVoice "lupe" "Lupe" "F" "es-US" "Español (US)" false,
    novaSonicVoice "carlos" "Carlos" "M" "es-US" "Español (US)" false,
    novaSonicVoice "carolina" "Carolina" "F" "pt-BR" "Português (BR)" false,
    novaSonicVoice "leo" "Leo" "M" "pt-BR" "Português (BR)" false ]

/-- `_VOICE_CONSTANTS`. -/
def voiceConstants : List (String × List (String × PyDict)) :=
  [("minimax", minimaxVoices), ("polly", pollyVoices), ("nova-sonic", novaSonicVoices)]

/-- The voices of the constants with their providers, in the order of the dictionaries. -/
def constantEntries : List (String × String × PyDict) :=
  voiceConstants.flatMap fun provider => provider.2.map fun voice => (provider.1, voice)

end Voices
