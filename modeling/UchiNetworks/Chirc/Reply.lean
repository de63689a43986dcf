import UchiNetworks.Chirc.Framer
import UchiNetworks.Chirc.State

/-!
# chirc: reply lines

`reply.h` and `constr_reply`. A line is built in a buffer of `maxMsg` bytes;
`snprintf` cuts it, the buffers that `sprintf` and `strcat` fill are taken to be
large enough here (`Line.room` says when they are).
-/

namespace UchiNetworks.Chirc

/-- The reply codes that are sent. -/
inductive Reply where
  | rplWelcome | rplYourhost | rplCreated | rplMyinfo
  | rplLuserclient | rplLuserop | rplLuserunknown | rplLuserchannels | rplLuserme
  | rplAway | rplUnaway | rplNowaway
  | rplWhoisuser | rplWhoisserver | rplWhoisoperator | rplEndofwhois | rplWhoischannels
  | rplWhoreply | rplEndofwho
  | rplList | rplListend
  | rplChannelmodeis
  | rplNotopic | rplTopic
  | rplNamreply | rplEndofnames
  | rplMotdstart | rplMotd | rplEndofmotd
  | rplYoureoper
  | errNosuchnick | errNosuchchannel | errCannotsendtochan | errUnknowncommand | errNomotd
  | errNicknameinuse | errUsernotinchannel | errNotonchannel | errNotregistered
  | errAlreadyregistred | errPasswdmismatch | errUnknownmode | errChanoprivisneeded
  | errUmodeunknownflag | errUsersdontmatch
  deriving DecidableEq, Repr

/-- The three digits of `reply.h`. -/
def Reply.code : Reply → CStr
  | .rplWelcome => str "001"
  | .rplYourhost => str "002"
  | .rplCreated => str "003"
  | .rplMyinfo => str "004"
  | .rplLuserclient => str "251"
  | .rplLuserop => str "252"
  | .rplLuserunknown => str "253"
  | .rplLuserchannels => str "254"
  | .rplLuserme => str "255"
  | .rplAway => str "301"
  | .rplUnaway => str "305"
  | .rplNowaway => str "306"
  | .rplWhoisuser => str "311"
  | .rplWhoisserver => str "312"
  | .rplWhoisoperator => str "313"
  | .rplEndofwhois => str "318"
  | .rplWhoischannels => str "319"
  | .rplWhoreply => str "352"
  | .rplEndofwho => str "315"
  | .rplList => str "322"
  | .rplListend => str "323"
  | .rplChannelmodeis => str "324"
  | .rplNotopic => str "331"
  | .rplTopic => str "332"
  | .rplNamreply => str "353"
  | .rplEndofnames => str "366"
  | .rplMotdstart => str "375"
  | .rplMotd => str "372"
  | .rplEndofmotd => str "376"
  | .rplYoureoper => str "381"
  | .errNosuchnick => str "401"
  | .errNosuchchannel => str "403"
  | .errCannotsendtochan => str "404"
  | .errUnknowncommand => str "421"
  | .errNomotd => str "422"
  | .errNicknameinuse => str "433"
  | .errUsernotinchannel => str "441"
  | .errNotonchannel => str "442"
  | .errNotregistered => str "451"
  | .errAlreadyregistred => str "462"
  | .errPasswdmismatch => str "464"
  | .errUnknownmode => str "472"
  | .errChanoprivisneeded => str "482"
  | .errUmodeunknownflag => str "501"
  | .errUsersdontmatch => str "502"

/-- `replmsg`: what stands behind the nick. `reply` is what the reply buffer
holds when `constr_reply` is called. -/
def Reply.text (cfg : Config) (client : Person) (nick reply extra : CStr) : Reply → CStr
  | .rplWelcome => str ":Welcome to the Internet Relay Network " ++ nick ++ str "!" ++
      client.user ++ str "@" ++ client.address
  | .rplYourhost => str ":Your host is " ++ cfg.servername ++ str " running version " ++ cfg.version
  | .rplCreated => str ":This server was created " ++ cfg.birthday
  | .rplMyinfo => cfg.servername ++ str " " ++ cfg.version ++ str " ao mtov"
  | .rplLuserclient => str ":There are " ++ extra ++ str " users and 0 services on 1 servers"
  | .rplLuserop => extra ++ str " :operator(s) online"
  | .rplLuserunknown => extra ++ str " :unknown connection(s)"
  | .rplLuserchannels => extra ++ str " :channels formed"
  | .rplLuserme => str ":I have " ++ extra ++ str " clients and 1 servers"
  | .rplAway => extra
  | .rplUnaway => str ":You are no longer marked as being away"
  | .rplNowaway => str ":You have been marked as being away"
  | .rplWhoisuser => extra
  | .rplWhoisserver => extra
  | .rplWhoisoperator => extra ++ str " :is an IRC operator"
  | .rplEndofwho => extra ++ str " :End of WHO list"
  | .rplEndofwhois => extra ++ str " :End of WHOIS list"
  | .rplWhoischannels => extra
  | .rplList => extra
  | .rplListend => str ":End of LIST"
  | .rplNotopic => extra ++ str " :No topic is set"
  | .rplTopic => reply
  | .rplWhoreply => extra
  | .rplNamreply => extra
  | .rplEndofnames => extra ++ str " :End of NAMES list"
  | .rplMotdstart => str ":- " ++ cfg.servername ++ str " Message of the day - "
  | .rplMotd => str ":- " ++ extra
  | .rplEndofmotd => str ":- End of MOTD command"
  | .rplYoureoper => str ":You are now an IRC operator"
  | .rplChannelmodeis => extra
  | .errNosuchnick => extra ++ str " :No such nick/channel"
  | .errNosuchchannel => extra ++ str " :No such channel"
  | .errCannotsendtochan => extra ++ str " :Cannot send to channel"
  | .errUnknowncommand => extra ++ str " :Unknown command"
  | .errNomotd => str ":MOTD File is missing"
  | .errNicknameinuse => extra ++ str " :Nickname is already in use"
  | .errUsernotinchannel => extra ++ str " :They aren't on that channel"
  | .errNotonchannel => extra ++ str " :You're not on that channel"
  | .errNotregistered => str ":You have not registered"
  | .errAlreadyregistred => str ":Unauthorized command (already registered)"
  | .errPasswdmismatch => str ":Password incorrect"
  | .errUnknownmode => reply ++ str " :is unknown mode char to me for " ++ extra
  | .errChanoprivisneeded => extra ++ str " :You're not channel operator"
  | .errUmodeunknownflag => str ":Unknown MODE flag"
  | .errUsersdontmatch => str ":Cannot change mode for other users"

/-- What `snprintf(buf, n, ..)` leaves in the buffer. -/
def snprintf (n : Nat) (s : CStr) : CStr := s.take (n - 1)

/-- `strcat(reply, "\\r\\n")` -/
def crlf (line : CStr) : CStr := line ++ [CR, LF]

/-- `constr_reply` -/
def constrReply (cfg : Config) (code : Reply) (client : Person) (reply extra : CStr) : CStr :=
  let nick := if client.nick = [] then str "*" else client.nick
  crlf (snprintf (maxMsg - 2) (str ":" ++ cfg.servername ++ str " " ++ code.code ++ str " " ++
    nick ++ str " " ++ code.text cfg client nick reply extra))

/-- `":%s!%s@%s "`, how a relayed message begins -/
def relayPrefix (p : Person) : CStr :=
  str ":" ++ p.nick ++ str "!" ++ p.user ++ str "@" ++ p.address ++ str " "

/-- `%u` -/
def fmtU (n : Nat) : CStr := str (toString n)

/-- `%i` -/
def fmtI (n : Int) : CStr := str (toString n)

end UchiNetworks.Chirc
